import Mt7610u.Wpa.Handshake
import Mt7610u.Lib.Runs

/-! # What a received frame can do -/

namespace Mt7610u.Wpa

open Lib Crypto

variable {suite : Suite} {env : Env} {k : MsgType} {f : EapolPacket} {s s' : Sta} {i : Input}

/-! ### The checks -/

/-- A frame has passed the checks of `peerWpaMessageSanity` that come before its key data. -/
structure Passed (suite : Suite) (env : Env) (k : MsgType) (f : EapolPacket) (s : Sta) : Prop where
  memory : env.keyData = true
  fresh : replayDiff k s.entry f = false
  mic : k ≠ .pairMsg1 → micDiff suite env.memory s.entry f = false

/-- The outcomes of `peerWpaMessageSanity`. -/
inductive Checked (suite : Suite) (env : Env) (k : MsgType) (f : EapolPacket) (s : Sta) :
    Bool × Sta → Prop
  | refused : Checked suite env k f s (false, s)
  | passed (h : Passed suite env k f s) : Checked suite env k f s (true, s)
  | groupKey (h : Passed suite env k f s) (hk : gtkIncluded s.entry.authMode.bWpa2 k = true)
      (g : GroupKey) : Checked suite env k f s (true, installGroupKey g s)

theorem parse_checked (h : Passed suite env k f s)
    (hk : gtkIncluded s.entry.authMode.bWpa2 k = true) (data : ℕ → Byte) (len index : ℕ) :
    Checked suite env k f s
      (rtmpParseEapolKeyData data len index k s.entry.authMode.bWpa2 s) := by
  unfold rtmpParseEapolKeyData
  split_ifs
  · exact .passed h
  · split
    · exact .refused
    · exact .groupKey h hk _

theorem parse_plain {data : ℕ → Byte} {len index : ℕ}
    (hk : gtkIncluded s.entry.authMode.bWpa2 k = false) (h23 : k = .pairMsg2 ∨ k = .pairMsg3) :
    rtmpParseEapolKeyData data len index k s.entry.authMode.bWpa2 s = (true, s) := by
  refine if_pos ?_
  rcases h23 with rfl | rfl
  · exact Or.inl rfl
  · exact Or.inr ⟨rfl, by simpa [gtkIncluded] using hk⟩

/-- **The checks.** A refused frame changes nothing, and a group key is all that a passed one can
bring. -/
theorem sanity_checked (suite : Suite) (env : Env) (k : MsgType) (f : EapolPacket) (s : Sta) :
    Checked suite env k f s (peerWpaMessageSanity suite env k f s) := by
  simp only [peerWpaMessageSanity]
  split_ifs with hmem hrep hmic hlen hgtk h23
  · exact .refused
  · exact .refused
  · exact .refused
  all_goals
    have hpass : Passed suite env k f s :=
      ⟨by simpa using hmem, by simpa using hrep,
        fun hk => by simpa using fun h => hmic ⟨hk, h⟩⟩
  · exact .passed hpass
  · exact parse_checked hpass hgtk _ _ _
  · rw [parse_plain (by simpa using hgtk) h23]
    exact .passed hpass
  · exact .passed hpass

structure SameHandshake (s s' : Sta) : Prop where
  entry : s'.entry = s.entry
  portSecured : s'.staCfg.portSecured = s.staCfg.portSecured
  ptkNonces : s'.ptkNonces = s.ptkNonces
  installs : s'.installs = s.installs
  halted : s'.halted = s.halted

theorem Checked.same {r : Bool × Sta} (h : Checked suite env k f s r) : SameHandshake s r.2 := by
  cases h <;> exact ⟨rfl, rfl, rfl, rfl, rfl⟩

theorem Checked.refused_eq {r : Bool × Sta} (h : Checked suite env k f s r) (hr : r.1 = false) : r.2 = s := by
  cases h with
  | refused => rfl
  | passed h => exact absurd hr (by simp)
  | groupKey h hk g => exact absurd hr (by simp)

theorem Checked.isPassed {r : Bool × Sta} (h : Checked suite env k f s r) (hr : r.1 = true) :
    Passed suite env k f s := by
  cases h with
  | refused => exact absurd hr (by simp)
  | passed h => exact h
  | groupKey h hk g => exact h

theorem Checked.eq_of_not_included {r : Bool × Sta} (h : Checked suite env k f s r)
    (hk : gtkIncluded s.entry.authMode.bWpa2 k = false) : r.2 = s := by
  cases h with
  | refused => rfl
  | passed h => rfl
  | groupKey h hk' g => exact absurd hk' (by simp [hk])

/-! ### The effects of a frame -/

def ready (k : MsgType) (elem : Elem) (s : Sta) : Bool :=
  let long := decide (minMsgLen ≤ elem.msgLen)
  let client := s.entry.entryType == .client
  match k with
  | .pairMsg1 | .pairMsg3 => s.entry.isPeer && long
  | .groupMsg1 => s.entry.isPeer
  | .pairMsg2 =>
    client && long && decide (ApWpaState.asPtkStart.value ≤ s.entry.wpaState.value)
  | .pairMsg4 =>
    client && long && decide (ApWpaState.asPtkInitNegotiating.value ≤ s.entry.wpaState.value)
  | .groupMsg2 => client && long && s.entry.wpaState == .asPtkInitDone

/-- The frame is taken for a message `k` and passes `peerWpaMessageSanity`. -/
def Accepts (suite : Suite) (s : Sta) (i : Input) (k : MsgType) : Prop :=
  s.halted = false ∧ dispatch s i.elem = some k ∧ ready k i.elem s = true ∧
    (peerWpaMessageSanity suite i.env k i.elem.packet s).1 = true

instance : Decidable (Accepts suite s i k) := inferInstanceAs (Decidable (_ ∧ _ ∧ _ ∧ _))

theorem Accepts.passed (h : Accepts suite s i k) : Passed suite i.env k i.elem.packet s :=
  (sanity_checked suite i.env k i.elem.packet s).isPassed h.2.2.2

def afterChecks (suite : Suite) (s : Sta) (i : Input) (k : MsgType) : Sta :=
  (peerWpaMessageSanity suite i.env k i.elem.packet s).2

theorem afterChecks_same (suite : Suite) (s : Sta) (i : Input) (k : MsgType) :
    SameHandshake s (afterChecks suite s i k) :=
  (sanity_checked suite i.env k i.elem.packet s).same

inductive Effect (suite : Suite) (s : Sta) (i : Input) : Sta → Prop
  | idle : Effect suite s i s
  | msg1 (h : Accepts suite s i .pairMsg1) :
      Effect suite s i (acceptMsg1 suite i.env i.elem.packet s)
  | msg2 : Effect suite s i { s with entry := { s.entry with sNonce := i.elem.packet.keyNonce } }
  | msg3Late (h : Accepts suite s i .pairMsg3)
      (hlate : s.entry.aNonce ≠ i.elem.packet.keyNonce ∨ i.env.mpool = false) :
      Effect suite s i (storeCounter i.elem.packet (afterChecks suite s i .pairMsg3))
  | msg3 (h : Accepts suite s i .pairMsg3) (hnonce : s.entry.aNonce = i.elem.packet.keyNonce)
      (hpool : i.env.mpool = true) :
      Effect suite s i (acceptMsg3 (storeCounter i.elem.packet (afterChecks suite s i .pairMsg3)))
  | msg4 (h : Accepts suite s i .pairMsg4) : Effect suite s i (acceptMsg4 i.env s)
  | group1Late (h : Accepts suite s i .groupMsg1) (hpool : i.env.mpool = false) :
      Effect suite s i (storeCounter i.elem.packet (afterChecks suite s i .groupMsg1))
  | group1 (h : Accepts suite s i .groupMsg1) (hpool : i.env.mpool = true) :
      Effect suite s i
        (staPortSecured (storeCounter i.elem.packet (afterChecks suite s i .groupMsg1)))

theorem acceptMsg3_entry (s : Sta) :
    (acceptMsg3 s).entry =
      { s.entry with
        wpaState := .asPtkInitDone
        pairwiseKey := pairwiseKeyOf s.entry.wepStatus s.entry.ptk false
        portSecured := s.entry.authMode.bWpa2 || s.entry.portSecured } := by
  unfold acceptMsg3
  cases h : s.entry.authMode.bWpa2 <;> simp [wpaInstallPairwiseKey, staPortSecured, h]

theorem acceptMsg3_installs (s : Sta) : (acceptMsg3 s).installs = s.ptkNonces :: s.installs := by
  simp only [acceptMsg3]
  split_ifs <;> rfl

theorem msg1_effect (hh : s.halted = false) (hd : dispatch s i.elem = some .pairMsg1) :
    Effect suite s i (peerPairMsg1Action suite i.env i.elem s).1 := by
  have hc := sanity_checked suite i.env .pairMsg1 i.elem.packet s
  have heq := hc.eq_of_not_included (by simp [gtkIncluded])
  simp only [peerPairMsg1Action, heq]
  split_ifs with hg hr hm
  · exact .idle
  · exact .msg1 ⟨hh, hd, by simpa [ready, not_or] using hg, hr⟩
  · exact .msg1 ⟨hh, hd, by simpa [ready, not_or] using hg, hr⟩
  · exact .idle

theorem msg3_effect (hh : s.halted = false) (hd : dispatch s i.elem = some .pairMsg3) :
    Effect suite s i (peerPairMsg3Action suite i.env i.elem s).1 := by
  have hc := sanity_checked suite i.env .pairMsg3 i.elem.packet s
  have hentry := hc.same.entry
  simp only [peerPairMsg3Action]
  split_ifs with hg hr hl
  · exact .idle
  · refine .msg3Late ⟨hh, hd, by simpa [ready, not_or] using hg, hr⟩ ?_
    simpa [storeCounter, hentry] using hl
  · have hacc : Accepts suite s i .pairMsg3 := ⟨hh, hd, by simpa [ready, not_or] using hg, hr⟩
    simp only [storeCounter, hentry, not_or, ne_eq, not_not, Bool.not_eq_false] at hl
    exact .msg3 hacc hl.1 hl.2
  · rw [hc.refused_eq (by simpa using hr)]
    exact .idle

theorem group1_effect (hh : s.halted = false) (hd : dispatch s i.elem = some .groupMsg1) :
    Effect suite s i (peerGroupMsg1Action suite i.env i.elem s).1 := by
  have hc := sanity_checked suite i.env .groupMsg1 i.elem.packet s
  simp only [peerGroupMsg1Action]
  split_ifs with hg hr hm
  · exact .idle
  · exact .group1 ⟨hh, hd, by simpa [ready] using hg, hr⟩ hm
  · exact .group1Late ⟨hh, hd, by simpa [ready] using hg, hr⟩ (by simpa using hm)
  · rw [hc.refused_eq (by simpa using hr)]
    exact .idle

theorem msg4_effect (hh : s.halted = false) (hd : dispatch s i.elem = some .pairMsg4) :
    Effect suite s i (peerPairMsg4Action suite i.env i.elem s) := by
  have hc := sanity_checked suite i.env .pairMsg4 i.elem.packet s
  have heq := hc.eq_of_not_included (by simp [gtkIncluded])
  simp only [peerPairMsg4Action, heq]
  split_ifs with hg hr
  · exact .idle
  · exact .msg4 ⟨hh, hd, by simpa [ready, not_or, and_assoc] using hg, hr⟩
  · exact .idle

theorem step_effect (suite : Suite) (s : Sta) (i : Input) : Effect suite s i (wpaEAPOLKeyAction suite s i) := by
  unfold wpaEAPOLKeyAction
  split_ifs with hh
  · exact .idle
  have hh : s.halted = false := by simpa using hh
  split
  · exact .idle
  · exact msg1_effect hh ‹_›
  · unfold peerPairMsg2Action
    split_ifs
    · exact .idle
    · exact .msg2
  · exact msg3_effect hh ‹_›
  · exact msg4_effect hh ‹_›
  · exact group1_effect hh ‹_›
  · have hc := sanity_checked suite i.env .groupMsg2 i.elem.packet s
    unfold peerGroupMsg2Action
    rw [hc.eq_of_not_included (by simp [gtkIncluded]), ite_self]
    exact .idle

/-! ### A sample station -/

def sampleSuite : Suite := ⟨fun _ _ _ => 1, fun _ _ _ => 1, fun _ _ _ => 1, fun _ _ _ _ _ _ => 2⟩

def sampleMemory : Memory := ⟨true, true, true, fun _ => 0⟩

def sampleSta (w : WepStatus) : Sta where
  currentAddress := fun _ => 0x22
  staCfg := ⟨zeros 32, .encryption3Enabled, [], fun _ => 0, 0, zeros 64, false⟩
  entry :=
    ⟨.client, fun _ => 0x11, .wpa2Psk, w, .assoc, .asInitPsk, zeros 8, zeros 32, zeros 32, zeros 64,
      CipherKey.zero, false⟩
  sharedKey := fun _ => CipherKey.zero
  ptkNonces := none
  installs := []
  halted := false

/-- A frame without key data whose MIC is the fixed code. `aNonce` fills its nonce and `sNonce` the
random nonce of the station. -/
def sampleInput (k : MsgType) (counter aNonce sNonce : Byte) : Input where
  env := ⟨true, true, true, sampleMemory, fun _ => sNonce, ⟨true, true, sampleMemory⟩⟩
  elem :=
    { msgLen := 131
      addr2 := fun _ => 0x11
      packet :=
        ⟨1, 3, 95, 2, constructKeyInfo true keyDescAes k 0, 0,
          fun i => if i.1 = 7 then counter else 0, fun _ => aNonce, zeros 16, zeros 8, zeros 8,
          fun _ => 1, 0, fun _ => 0⟩
      enough := by decide }

end Mt7610u.Wpa
