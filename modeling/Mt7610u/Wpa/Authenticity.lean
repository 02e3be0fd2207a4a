import Mt7610u.Wpa.Effects

/-! # Authenticated changes of keys -/

namespace Mt7610u.Wpa

open Lib Lib.Runs

variable {suite : Suite} {s s' : Sta} {i : Input} {k : MsgType}

/-- The pairwise key, the shared keys, `DefaultKeyId` and the status of the ports. -/
def keyState (s : Sta) : CipherKey × (Fin 4 → CipherKey) × ℕ × Bool × Bool :=
  (s.entry.pairwiseKey, s.sharedKey, s.staCfg.defaultKeyId, s.entry.portSecured, s.staCfg.portSecured)

def VersionMatches (w : WepStatus) (ver : BitVec 3) : Prop :=
  w = .encryption2Enabled ∧ ver = keyDescTkip ∨ w = .encryption3Enabled ∧ (ver = keyDescAes ∨ ver = keyDescExt)

/-- The MIC of the frame is the one that the KCK of the current PTK gives for it, its length field
does not exceed the received bytes, and its version matches the cipher. -/
structure Authentic (suite : Suite) (s : Sta) (i : Input) : Prop where
  mic : micOf suite i.elem.packet.keyInfo.keyDescVer s.entry.kck
    (i.elem.packet.zeroMic.octets i.elem.packet.eapolLen) = some i.elem.packet.keyMic
  length : i.elem.packet.eapolLen ≤ i.elem.msgLen - 24 - 8
  version : VersionMatches s.entry.wepStatus i.elem.packet.keyInfo.keyDescVer

/-! ### Which frames change keys -/

theorem accepts_of_keyState_ne (h : keyState (wpaEAPOLKeyAction suite s i) ≠ keyState s) :
    ∃ k, k ≠ .pairMsg1 ∧ Accepts suite s i k := by
  have heff := step_effect suite s i
  generalize wpaEAPOLKeyAction suite s i = s' at heff h
  cases heff with
  | idle => exact absurd rfl h
  | msg1 hacc => exact absurd rfl h
  | msg2 => exact absurd rfl h
  | msg3Late hacc hlate => exact ⟨_, by decide, hacc⟩
  | msg3 hacc hnonce hpool => exact ⟨_, by decide, hacc⟩
  | msg4 hacc => exact ⟨_, by decide, hacc⟩
  | group1Late hacc hpool => exact ⟨_, by decide, hacc⟩
  | group1 hacc hpool => exact ⟨_, by decide, hacc⟩

theorem dispatch_checked {elem : Elem} (h : dispatch s elem = some k) :
    elem.packet.eapolLen ≤ elem.msgLen - 24 - 8 ∧
      versionChecked s.entry.wepStatus elem.packet.keyInfo.keyDescVer = true := by
  simp only [dispatch] at h
  split_ifs at h with h1 h2 h3 h4 h5 h6
  exact ⟨not_lt.1 h3, by simpa using h5⟩

theorem versionChecked_iff {w : WepStatus} {ver : BitVec 3}
    (hw : w = .encryption2Enabled ∨ w = .encryption3Enabled) :
    versionChecked w ver = true ↔ VersionMatches w ver := by
  rcases hw with rfl | rfl <;> simp [versionChecked, VersionMatches]

theorem computeMic_eq {m : Memory} {ver : BitVec 3} {kck data : List Byte}
    (hver : ver = keyDescTkip ∨ ver = keyDescAes ∨ ver = keyDescExt) (hctx : ver = keyDescExt → m.aesCtx = true) :
    micOf suite ver kck data = some (computeMic suite m ver kck data) := by
  rcases hver with rfl | rfl | rfl
  · rfl
  · rfl
  · simp [computeMic, micOf, hctx rfl, keyDescExt, keyDescTkip, keyDescAes]

/-- **A change of keys is authentic** where the version is checked and its code can be computed. -/
theorem authentic_of_keyState_ne
    (hw : s.entry.wepStatus = .encryption2Enabled ∨ s.entry.wepStatus = .encryption3Enabled ∧
      (i.elem.packet.keyInfo.keyDescVer = keyDescExt → i.env.memory.aesCtx = true))
    (h : keyState (wpaEAPOLKeyAction suite s i) ≠ keyState s) : Authentic suite s i := by
  obtain ⟨k, hk, hacc⟩ := accepts_of_keyState_ne h
  obtain ⟨hlen, hver⟩ := dispatch_checked hacc.2.1
  have hmatch := (versionChecked_iff (hw.imp_right And.left)).1 hver
  have hmic := hacc.passed.mic hk
  simp only [micDiff, bne_eq_false_iff_eq] at hmic
  refine ⟨?_, hlen, hmatch⟩
  rw [hmic]
  refine computeMic_eq ?_ ?_
  · rcases hmatch with ⟨-, h1⟩ | ⟨-, h2⟩
    · exact Or.inl h1
    · exact Or.inr h2
  · intro hext
    rcases hw with htkip | ⟨-, hctx⟩
    · rcases hmatch with ⟨-, h1⟩ | ⟨haes, -⟩
      · exact absurd (h1.symm.trans hext) (by decide)
      · exact absurd (htkip.symm.trans haes) (by decide)
    · exact hctx hext

/-! ### Reachable stations -/

structure Associated (s : Sta) : Prop where
  wpaState : s.entry.wpaState = .asInitPsk
  rCounter : s.entry.rCounter = zeros 8
  pairwiseKey : s.entry.pairwiseKey = CipherKey.zero
  entryPort : s.entry.portSecured = false
  staPort : s.staCfg.portSecured = false
  running : s.halted = false

/-- A run of frames leads from an association with the pairwise cipher `w` to the station. -/
def Reachable (suite : Suite) (w : WepStatus) (s : Sta) : Prop :=
  ∃ s₀ ops, Associated s₀ ∧ s₀.entry.wepStatus = w ∧ s = run (wpaEAPOLKeyAction suite) s₀ ops

theorem afterChecks_wepStatus (suite : Suite) (s : Sta) (i : Input) (k : MsgType) :
    (afterChecks suite s i k).entry.wepStatus = s.entry.wepStatus := by
  rw [(afterChecks_same suite s i k).entry]

theorem wepStatus_step (suite : Suite) (s : Sta) (i : Input) :
    (wpaEAPOLKeyAction suite s i).entry.wepStatus = s.entry.wepStatus := by
  have heff := step_effect suite s i
  generalize wpaEAPOLKeyAction suite s i = s' at heff
  cases heff with
  | idle => rfl
  | msg1 hacc => rfl
  | msg2 => rfl
  | msg3Late hacc hlate => exact afterChecks_wepStatus suite s i .pairMsg3
  | msg3 hacc hnonce hpool =>
    rw [acceptMsg3_entry]
    exact afterChecks_wepStatus suite s i .pairMsg3
  | msg4 hacc => rfl
  | group1Late hacc hpool => exact afterChecks_wepStatus suite s i .groupMsg1
  | group1 hacc hpool => exact afterChecks_wepStatus suite s i .groupMsg1

theorem Reachable.wepStatus {w : WepStatus} (h : Reachable suite w s) : s.entry.wepStatus = w := by
  obtain ⟨s₀, ops, -, hw, rfl⟩ := h
  exact run_invariant_all (I := fun s => s.entry.wepStatus = w)
    (fun s i hs => (wepStatus_step suite s i).trans hs) ops s₀ hw

/-! ### A forged message 3 -/

def forgedInput (ver : BitVec 3) (ok : Bool) : Input :=
  let i := sampleInput .pairMsg3 1 0 0
  let mic : Byte :=
    if ver = keyDescTkip ∨ ver = keyDescAes ∨ ver = keyDescExt ∧ ok = true then 1 else 0
  { env := { i.env with memory := { sampleMemory with aesCtx := ok } }
    elem :=
      { i.elem with
        packet :=
          { i.elem.packet with
            keyInfo := { i.elem.packet.keyInfo with keyDescVer := ver }
            keyMic := fun _ => mic } } }

theorem sampleSta_reachable (suite : Suite) (w : WepStatus) : Reachable suite w (sampleSta w) :=
  ⟨sampleSta w, [], ⟨rfl, rfl, rfl, rfl, rfl, rfl⟩, rfl, rfl⟩

theorem forged_micDiff (w : WepStatus) (ver : BitVec 3) (ok : Bool) :
    micDiff sampleSuite (forgedInput ver ok).env.memory (sampleSta w).entry
      (forgedInput ver ok).elem.packet = false := by
  simp only [micDiff, bne_eq_false_iff_eq, computeMic, micOf, forgedInput, sampleSuite]
  by_cases h1 : ver = keyDescTkip
  · subst h1
    rfl
  by_cases h2 : ver = keyDescAes
  · subst h2
    rfl
  by_cases h3 : ver = keyDescExt
  · subst h3
    cases ok <;> rfl
  simp only [h1, h2, h3, false_and, or_self, if_false]
  rfl

theorem forged_secures {w : WepStatus} {ver : BitVec 3} (ok : Bool) (hv : versionChecked w ver = true) :
    keyState (wpaEAPOLKeyAction sampleSuite (sampleSta w) (forgedInput ver ok)) ≠
      keyState (sampleSta w) := by
  have hd : dispatch (sampleSta w) (forgedInput ver ok).elem = some .pairMsg3 := by
    have hv' : versionChecked (sampleSta w).entry.wepStatus
        (forgedInput ver ok).elem.packet.keyInfo.keyDescVer = true := hv
    simp only [dispatch, hv']
    rfl
  have hs : peerWpaMessageSanity sampleSuite (forgedInput ver ok).env .pairMsg3
      (forgedInput ver ok).elem.packet (sampleSta w) = (true, sampleSta w) := by
    simp only [peerWpaMessageSanity, forged_micDiff]
    rfl
  have hport : (wpaEAPOLKeyAction sampleSuite (sampleSta w)
      (forgedInput ver ok)).staCfg.portSecured = true := by
    simp only [wpaEAPOLKeyAction, hd, peerPairMsg3Action, hs]
    rfl
  intro h
  have h' := congrArg (fun x => x.2.2.2.2) h
  simp only [keyState, hport] at h'
  exact absurd h' (by simp [sampleSta])

/-! ### When changes of keys are authentic -/

/-- **Authenticated changes.** Only authentic frames change the keys of a reachable station exactly
when its pairwise cipher is TKIP, or AES with memory for the contexts of `AES_CMAC` where the version
calls for it. -/
theorem keyState_authentic_iff (w : WepStatus) (ver : BitVec 3) (ok : Bool) :
    (∀ (suite : Suite) (s : Sta) (i : Input), Reachable suite w s →
        i.elem.packet.keyInfo.keyDescVer = ver → i.env.memory.aesCtx = ok →
        keyState (wpaEAPOLKeyAction suite s i) ≠ keyState s → Authentic suite s i) ↔
      w = .encryption2Enabled ∨ w = .encryption3Enabled ∧ (ver = keyDescExt → ok = true) := by
  constructor
  · intro h
    by_contra hcon
    have hforged := h sampleSuite (sampleSta w) (forgedInput ver ok)
      (sampleSta_reachable _ _) rfl rfl
    rw [not_or, not_and] at hcon
    obtain ⟨htkip, haes⟩ := hcon
    by_cases hw : w = .encryption3Enabled
    · -- AES without contexts: the station compares with memory that was never written
      have hext := haes hw
      rw [Classical.not_imp] at hext
      obtain ⟨rfl, hok⟩ := hext
      have hok : ok = false := by simpa using hok
      subst hok hw
      have hmic := (hforged (forged_secures _ (by decide))).mic
      exact absurd (congrFun (Option.some.inj hmic) 0) (by decide)
    · have hv : versionChecked w ver = true := by
        cases w <;> first | rfl | exact absurd rfl htkip | exact absurd rfl hw
      rcases (hforged (forged_secures ok hv)).version with ⟨hw', -⟩ | ⟨hw', -⟩
      · exact htkip hw'
      · exact hw hw'
  · rintro hw suite s i hreach rfl rfl hne
    rw [← hreach.wepStatus] at hw
    exact authentic_of_keyState_ne hw hne

/-- A frame of the unknown version zero with a MIC of zeros opens the ports of a station that was
configured without a pairwise cipher. -/
theorem not_authentic_unchecked :
    ¬ ∀ (w : WepStatus) (suite : Suite) (s : Sta) (i : Input), Reachable suite w s →
      keyState (wpaEAPOLKeyAction suite s i) ≠ keyState s → Authentic suite s i := by
  intro h
  have hauth := h .wepDisabled sampleSuite (sampleSta .wepDisabled) (forgedInput 0 true)
    (sampleSta_reachable _ _) (forged_secures true rfl)
  exact absurd hauth.mic (by decide)

end Mt7610u.Wpa
