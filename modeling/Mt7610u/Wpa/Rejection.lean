import Mt7610u.Wpa.Authenticity
import Mt7610u.Wpa.ReplayCounter

/-! # Rejected frames

Which frames a station rejects without a trace. -/

namespace Mt7610u.Wpa

open Lib Crypto

variable {suite : Suite} {env : Env} {elem : Elem} {s : Sta}

inductive PeerMsg
  | pair1 | pair3 | group1
deriving DecidableEq, Repr

def PeerMsg.type : PeerMsg → MsgType
  | pair1 => .pairMsg1
  | pair3 => .pairMsg3
  | group1 => .groupMsg1

/-- The action of a message: the station after it and the reply that is sent. -/
def PeerMsg.action (suite : Suite) (env : Env) (elem : Elem) (s : Sta) :
    PeerMsg → Sta × Option EapolPacket
  | pair1 => peerPairMsg1Action suite env elem s
  | pair3 => peerPairMsg3Action suite env elem s
  | group1 => peerGroupMsg1Action suite env elem s

/-- `WpaState`, `R_Counter`, the PTK, `ANonce` and the keys and ports of a station. -/
def handshakeState (s : Sta) := (s.entry.wpaState, s.entry.rCounter, s.entry.ptk, s.entry.aNonce, keyState s)

/-- The key data is encrypted and its decryption fails: `AES_Key_Unwrap` returns an error, or there is
no memory for a context of the cipher. -/
def DecryptFails (env : Env) (k : PeerMsg) (f : EapolPacket) (s : Sta) : Prop :=
  gtkIncluded s.entry.authMode.bWpa2 k.type = true ∧ f.keyDataLen.toNat ≠ 0 ∧
    if f.keyInfo.keyDescVer = keyDescExt ∨ f.keyInfo.keyDescVer = keyDescAes then
      aesKeyUnwrap env.memory.result s.entry.kek (read f.keyData f.keyDataLen.toNat) = none ∨
        env.memory.aesCtx = false
    else env.memory.arc4Ctx = false

def Rejected (suite : Suite) (env : Env) (elem : Elem) (k : PeerMsg) (s : Sta) : Prop :=
  (k.action suite env elem s).2 = none ∨ DecryptFails env k elem.packet s

/-- No memory for the reply, a message 3 with another nonce, or key data that cannot be decrypted. -/
def LateFailure (env : Env) (elem : Elem) (k : PeerMsg) (s : Sta) : Prop :=
  env.mpool = false ∨ k = .pair3 ∧ s.entry.aNonce ≠ elem.packet.keyNonce ∨ DecryptFails env k elem.packet s

/-- The frame is refused before anything can change: it is too short, there is no memory for the key
data, its counter or its MIC is wrong, or its key data does not parse. -/
def Refused (suite : Suite) (env : Env) (elem : Elem) (k : PeerMsg) (s : Sta) : Prop :=
  ready k.type elem s = false ∨ env.keyData = false ∨
    replayDiff k.type s.entry elem.packet = true ∨
    k ≠ .pair1 ∧ micDiff suite env.memory s.entry elem.packet = true ∨
    gtkIncluded s.entry.authMode.bWpa2 k.type = true ∧ elem.packet.keyDataLen.toNat ≠ 0 ∧
      parseGroupKey (decryptKeyData env.memory s.entry elem.packet).1
        ((decryptKeyData env.memory s.entry elem.packet).2 % 256)
        (groupKeyIndex s.entry.authMode.bWpa2 k.type elem.packet) s.entry.authMode.bWpa2 = none

/-! ### The checks and the actions -/

theorem PeerMsg.type_ne_pairMsg1 {k : PeerMsg} : k.type ≠ .pairMsg1 ↔ k ≠ .pair1 := by
  cases k <;> decide

theorem PeerMsg.toSupplicant_type (k : PeerMsg) : k.type.toSupplicant = true := by
  cases k <;> rfl

theorem parse_fst {data : ℕ → Byte} {len index : ℕ} {k : PeerMsg}
    (hk : gtkIncluded s.entry.authMode.bWpa2 k.type = true) :
    (rtmpParseEapolKeyData data len index k.type s.entry.authMode.bWpa2 s).1 = false ↔
      parseGroupKey data (len % 256) index s.entry.authMode.bWpa2 = none := by
  have hguard : ¬ (k.type = .pairMsg2 ∨ k.type = .pairMsg3 ∧ s.entry.authMode.bWpa2 = false) := by
    cases k <;> simp_all [PeerMsg.type, gtkIncluded]
  rw [rtmpParseEapolKeyData, if_neg hguard]
  cases parseGroupKey data (len % 256) index s.entry.authMode.bWpa2 <;> simp

theorem refused_iff {k : PeerMsg} (hready : ready k.type elem s = true) :
    Refused suite env elem k s ↔
      (peerWpaMessageSanity suite env k.type elem.packet s).1 = false := by
  simp only [Refused, hready, peerWpaMessageSanity, PeerMsg.type_ne_pairMsg1]
  split_ifs with hmem hrep hmic hlen hgtk h23
  · simp [hmem]
  · simp [hrep]
  · simp [hmic]
  · simp only [hmem, hrep, hmic, hlen, Bool.true_eq_false, Bool.false_eq_true, ne_eq,
      not_true_eq_false, false_and, and_false, or_self]
  · simp only [hmem, hrep, hmic, hlen, hgtk, Bool.true_eq_false, Bool.false_eq_true, ne_eq,
      not_false_eq_true, true_and, false_or, parse_fst hgtk]
  · simp only [hmem, hrep, hmic, hgtk, Bool.true_eq_false, Bool.false_eq_true, false_and, or_self,
      parse_plain (Bool.not_eq_true _ ▸ hgtk) h23]
  · simp only [hmem, hrep, hmic, hgtk, Bool.true_eq_false, Bool.false_eq_true, false_and, or_self]

theorem pair_ready {k : MsgType} (hk : k = .pairMsg1 ∨ k = .pairMsg3) :
    ready k elem s = false ↔ s.entry.isPeer = false ∨ elem.msgLen < minMsgLen := by
  rcases hk with rfl | rfl <;> simp [ready, imp_iff_not_or]

theorem action_of_refused {k : PeerMsg} (h : Refused suite env elem k s) :
    k.action suite env elem s = (s, none) := by
  cases hready : ready k.type elem s with
  | false =>
    cases k with
    | pair1 => exact if_pos ((pair_ready (Or.inl rfl)).1 hready)
    | pair3 => exact if_pos ((pair_ready (Or.inr rfl)).1 hready)
    | group1 => exact if_pos hready
  | true =>
    have hfalse := (refused_iff hready).1 h
    have heq := (sanity_checked suite env k.type elem.packet s).refused_eq hfalse
    cases k with
    | pair1 =>
      simp only [PeerMsg.type] at hfalse heq
      simp [PeerMsg.action, peerPairMsg1Action, hfalse, heq]
    | pair3 =>
      simp only [PeerMsg.type] at hfalse heq
      simp [PeerMsg.action, peerPairMsg3Action, hfalse, heq]
    | group1 =>
      simp only [PeerMsg.type] at hfalse heq
      simp [PeerMsg.action, peerGroupMsg1Action, hfalse, heq]

theorem action_of_not_refused {k : PeerMsg} (h : ¬ Refused suite env elem k s) :
    ((k.action suite env elem s).2 = none ↔
      env.mpool = false ∨ k = .pair3 ∧ s.entry.aNonce ≠ elem.packet.keyNonce) ∧
      (k.action suite env elem s).1.entry.rCounter = elem.packet.replayCounter := by
  have hready : ready k.type elem s = true := by
    by_contra hcon
    exact h (Or.inl (by simpa using hcon))
  have htrue : (peerWpaMessageSanity suite env k.type elem.packet s).1 = true := by
    rw [refused_iff hready] at h
    simpa using h
  have hentry := (sanity_checked suite env k.type elem.packet s).same.entry
  cases k with
  | pair1 =>
    have hguard := mt (pair_ready (Or.inl rfl)).2 (Bool.not_eq_false _ ▸ hready)
    simp only [PeerMsg.type] at htrue
    simp only [PeerMsg.action, peerPairMsg1Action, if_neg hguard, htrue, if_true]
    cases hm : env.mpool <;> simp [acceptMsg1]
  | pair3 =>
    have hguard := mt (pair_ready (Or.inr rfl)).2 (Bool.not_eq_false _ ▸ hready)
    simp only [PeerMsg.type] at htrue hentry
    simp only [PeerMsg.action, peerPairMsg3Action, if_neg hguard, htrue, if_true]
    have hnonce : (storeCounter elem.packet
        (peerWpaMessageSanity suite env .pairMsg3 elem.packet s).2).entry.aNonce =
          s.entry.aNonce := by
      rw [storeCounter, hentry]
    rw [hnonce]
    by_cases hlate : s.entry.aNonce ≠ elem.packet.keyNonce ∨ env.mpool = false
    · rw [if_pos hlate]
      exact ⟨by simpa [or_comm] using hlate, rfl⟩
    · rw [if_neg hlate, acceptMsg3_entry]
      exact ⟨by simpa [or_comm] using hlate, rfl⟩
  | group1 =>
    have hguard : ¬ s.entry.isPeer = false := Bool.not_eq_false _ ▸ hready
    simp only [PeerMsg.type] at htrue
    simp only [PeerMsg.action, peerGroupMsg1Action, if_neg hguard, htrue, if_true]
    cases hm : env.mpool <;> simp [storeCounter, staPortSecured]

/-! ### Rejected frames -/

theorem rejected_of_lateFailure {k : PeerMsg} (h : LateFailure env elem k s)
    (href : ¬ Refused suite env elem k s) : Rejected suite env elem k s := by
  rcases h with hpool | hnonce | hdec
  · exact Or.inl ((action_of_not_refused href).1.2 (Or.inl hpool))
  · exact Or.inl ((action_of_not_refused href).1.2 (Or.inr hnonce))
  · exact Or.inr hdec

theorem refused_of_rejected {k : PeerMsg} (h : Rejected suite env elem k s)
    (hlate : ¬ LateFailure env elem k s) : Refused suite env elem k s := by
  by_contra href
  rcases h with hnone | hdec
  · rcases (action_of_not_refused href).1.1 hnone with hpool | hnonce
    · exact hlate (Or.inl hpool)
    · exact hlate (Or.inr (Or.inl hnonce))
  · exact hlate (Or.inr (Or.inr hdec))

theorem handshakeState_of_refused {k : PeerMsg} (h : Refused suite env elem k s) :
    handshakeState (k.action suite env elem s).1 = handshakeState s := by
  rw [action_of_refused h]

theorem handshakeState_ne_of_not_refused {k : PeerMsg} (h : ¬ Refused suite env elem k s)
    (hzero : counterValue elem.packet.replayCounter ≠ 0) :
    handshakeState (k.action suite env elem s).1 ≠ handshakeState s := by
  have hfresh : replayDiff k.type s.entry elem.packet = false := by
    by_contra hcon
    exact h (Or.inr (Or.inr (Or.inl (by simpa using hcon))))
  intro heq
  have hcounter := congrArg (fun x => x.2.1) heq
  simp only [handshakeState, (action_of_not_refused h).2] at hcounter
  rcases (fresh_iff k.toSupplicant_type).1 hfresh with hlt | h0
  · rw [hcounter] at hlt
    exact lt_irrefl _ hlt
  · exact hzero h0

/-- **Rejected frames.** A rejected frame leaves the station as it was if it does not fail late. If its
counter is not all zero, it leaves the station as it was only then or when it was refused before it
could fail late. -/
theorem rejected_unchanged (suite : Suite) (env : Env) (elem : Elem) (k : PeerMsg) (s : Sta) :
    (¬ LateFailure env elem k s → Rejected suite env elem k s →
      handshakeState (k.action suite env elem s).1 = handshakeState s) ∧
    (counterValue elem.packet.replayCounter ≠ 0 →
      ((Rejected suite env elem k s →
          handshakeState (k.action suite env elem s).1 = handshakeState s) ↔
        ¬ LateFailure env elem k s ∨ Refused suite env elem k s)) := by
  have hsafe : ¬ LateFailure env elem k s → Rejected suite env elem k s →
      handshakeState (k.action suite env elem s).1 = handshakeState s :=
    fun hlate hrej => handshakeState_of_refused (refused_of_rejected hrej hlate)
  refine ⟨hsafe, fun hzero => ⟨fun h => ?_, ?_⟩⟩
  · by_contra hcon
    rw [not_or, not_not] at hcon
    exact handshakeState_ne_of_not_refused hcon.2 hzero (h (rejected_of_lateFailure hcon.1 hcon.2))
  · rintro (hlate | href)
    · exact hsafe hlate
    · exact fun _ => handshakeState_of_refused href

def sampleNegotiating : Sta :=
  wpaEAPOLKeyAction sampleSuite (sampleSta .encryption3Enabled) (sampleInput .pairMsg1 5 7 5)

/-- A message 3 with an older counter is rejected without a trace. -/
theorem rejected_unchanged_older :
    Rejected sampleSuite (sampleInput .pairMsg3 3 7 5).env (sampleInput .pairMsg3 3 7 5).elem .pair3
        sampleNegotiating ∧
      handshakeState (PeerMsg.pair3.action sampleSuite (sampleInput .pairMsg3 3 7 5).env
        (sampleInput .pairMsg3 3 7 5).elem sampleNegotiating).1 =
          handshakeState sampleNegotiating := by
  have hrej : Rejected sampleSuite (sampleInput .pairMsg3 3 7 5).env
      (sampleInput .pairMsg3 3 7 5).elem .pair3 sampleNegotiating :=
    Or.inl (Option.isNone_iff_eq_none.1 (by decide))
  have hlate : ¬ LateFailure (sampleInput .pairMsg3 3 7 5).env (sampleInput .pairMsg3 3 7 5).elem
      .pair3 sampleNegotiating := by
    rintro (hpool | ⟨-, hnonce⟩ | ⟨-, hdata, -⟩)
    · exact absurd hpool (by decide)
    · exact hnonce (by decide)
    · exact hdata rfl
  exact ⟨hrej, (rejected_unchanged _ _ _ _ _).1 hlate hrej⟩

/-- A message 3 whose nonce is not the stored one is discarded, and its counter is kept. -/
theorem not_unchanged_nonce :
    ¬ ∀ (suite : Suite) (env : Env) (elem : Elem) (k : PeerMsg) (s : Sta),
      Rejected suite env elem k s →
        handshakeState (k.action suite env elem s).1 = handshakeState s := by
  intro h
  have heq := h sampleSuite (sampleInput .pairMsg3 1 7 5).env (sampleInput .pairMsg3 1 7 5).elem
    .pair3 (sampleSta .encryption3Enabled) (Or.inl (Option.isNone_iff_eq_none.1 (by decide)))
  exact absurd (congrFun (congrArg (fun x => x.2.1) heq) 7) (by decide)

end Mt7610u.Wpa
