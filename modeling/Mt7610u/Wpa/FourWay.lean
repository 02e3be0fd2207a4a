import Mt7610u.Wpa.RoundTrip

/-! # A handshake that nobody disturbs

The messages 1 and 3 that an authenticator builds with `constructEapolMsg`, brought to a station in whatever
state earlier frames have left it. Both ends then hold the same keys, and the answers of the station pass the
checks of the authenticator. -/

namespace Mt7610u.Wpa

open Lib Crypto

variable {suite : Suite} {env : ConstructEnv} {e : MacTableEntry} {k : MsgType} {a : EapolArgs} {s : Sta} {i : Input}

/-! ### Built frames -/

structure Headed (e : MacTableEntry) (k : MsgType) (a : EapolArgs) (f : EapolPacket) : Prop where
  proVer : f.proVer = 1
  type : f.type = if e.authMode.bWpa2 then 2 else 0xfe
  info : f.keyInfo = constructKeyInfo e.authMode.bWpa2 (frameVer e a) k a.defaultKeyIdx
  counter : f.replayCounter = e.rCounter
  nonce : k = .pairMsg1 ∨ k = .pairMsg2 ∨ k = .pairMsg3 → f.keyNonce = a.keyNonce

theorem headed_constructEapolMsg (suite : Suite) (env : ConstructEnv) (e : MacTableEntry) (k : MsgType)
    (a : EapolArgs) : Headed e k a (constructEapolMsg suite env e k a) := by
  have hdata (msg : EapolPacket) (h : Headed e k a msg) :
      Headed e k a (constructEapolKeyData env e (frameVer e a) k a msg) := by
    unfold constructEapolKeyData
    split_ifs
    · exact h
    · exact h
    · exact ⟨h.proVer, h.type, h.info, h.counter, h.nonce⟩
    · exact ⟨h.proVer, h.type, h.info, h.counter, h.nonce⟩
  have hmic (msg : EapolPacket) (h : Headed e k a msg) : Headed e k a (calculateMic suite env (frameVer e a) e msg) := by
    unfold calculateMic
    split_ifs
    · exact ⟨h.proVer, h.type, h.info, h.counter, h.nonce⟩
    · exact h
  have hplain (msg : EapolPacket) (h : Headed e k a msg) :
      Headed e k a (if k = .pairMsg1 then constructEapolKeyData env e (frameVer e a) k a msg
        else calculateMic suite env (frameVer e a) e (constructEapolKeyData env e (frameVer e a) k a msg)) := by
    split_ifs
    · exact hdata msg h
    · exact hmic _ (hdata msg h)
  refine hplain _ ⟨rfl, rfl, rfl, rfl, fun h => if_pos ?_⟩
  rcases h with h | h | h
  · exact .inl h
  · exact .inr (.inl h)
  · exact .inr (.inr (.inl h))

/-- The code of a built frame is right for everyone who has the PTK of its sender. -/
theorem micDiff_constructEapolMsg (hk : k ≠ .pairMsg1) (hbuf : env.outBuffer = true) {e' : MacTableEntry}
    (hptk : e'.ptk = e.ptk) (m : Memory) : micDiff suite m e' (constructEapolMsg suite env e k a) = false := by
  have hver : (constructEapolMsg suite env e k a).keyInfo.keyDescVer = frameVer e a := by
    rw [(headed_constructEapolMsg suite env e k a).info]
    rfl
  have hkck : e'.kck = e.kck := by rw [MacTableEntry.kck, hptk]; rfl
  have hmic : (constructEapolMsg suite env e k a).keyMic =
      computeMic suite env.memory (frameVer e a) e.kck
        ((constructEapolMsg suite env e k a).zeroMic.octets (constructEapolMsg suite env e k a).eapolLen) := by
    simp only [constructEapolMsg, if_neg hk, calculateMic, if_pos hbuf, constructEapolKeyData]
    split_ifs <;> rfl
  rw [micDiff, bne_eq_false_iff_eq, hver, hkck, hmic]
  exact computeMic_congr (constructKeyDescVer_eq _ _)

theorem acceptMsg3_staCfg (hb : s.entry.authMode.bWpa2 = true) :
    (acceptMsg3 s).staCfg = { s.staCfg with ptk := s.entry.ptk, portSecured := true } := by
  unfold acceptMsg3
  simp [wpaInstallPairwiseKey, staPortSecured, hb]

theorem acceptMsg3_sharedKey (s : Sta) (i : Fin 4) :
    (acceptMsg3 s).sharedKey i = if i.1 = 0 then (acceptMsg3 s).entry.pairwiseKey else s.sharedKey i := by
  unfold acceptMsg3
  dsimp only
  split <;> rfl

/-! ### The exchange -/

structure FourWay where
  sta : Sta
  ap : MacTableEntry
  counter3 : Bytes 8
  args : EapolArgs
  sender1 : ConstructEnv
  sender3 : ConstructEnv
  in1 : Input
  in3 : Input

namespace FourWay

variable (suite : Suite) (h : FourWay)

def ptk : Bytes 64 :=
  suite.wpaDerivePTK h.sta.staCfg.pmk h.args.keyNonce h.sta.entry.addr h.in1.env.sNonce h.sta.currentAddress

def ap2 : MacTableEntry := { h.ap with ptk := h.ptk suite }

def ap3 : MacTableEntry := { h.ap2 suite with rCounter := h.counter3 }

def msg1 : EapolPacket := constructEapolMsg suite h.sender1 h.ap .pairMsg1 h.args

def msg3 : EapolPacket := constructEapolMsg suite h.sender3 (h.ap3 suite) .pairMsg3 h.args

def sta1 : Sta := wpaEAPOLKeyAction suite h.sta h.in1

def sta3 : Sta := wpaEAPOLKeyAction suite (h.sta1 suite) h.in3

end FourWay

structure Receives (s : Sta) (i : Input) (f : EapolPacket) : Prop where
  packet : i.elem.packet = f
  addr : i.elem.addr2 = s.entry.addr
  whole : f.eapolLen ≤ i.elem.msgLen - 24 - 8
  long : minMsgLen ≤ i.elem.msgLen
  keyData : i.env.keyData = true
  mpool : i.env.mpool = true
  reply : i.env.reply.outBuffer = true

structure Waits (s : Sta) : Prop where
  running : s.halted = false
  peer : s.entry.isPeer = true
  wpa : s.entry.authMode.belowWpa = false
  assoc : s.entry.sst = .assoc
  started : ApWpaState.asInitPsk.value ≤ s.entry.wpaState.value

/-- Nothing goes wrong: both ends are set up alike, the authenticator counts upward, and the key data of message 3
fit the length of the parser. -/
structure FourWay.Undisturbed (suite : Suite) (h : FourWay) : Prop where
  waits : Waits h.sta
  wpa2 : h.sta.entry.authMode.bWpa2 = true
  mode : h.ap.authMode = h.sta.entry.authMode
  version : versionChecked h.sta.entry.wepStatus (frameVer h.ap h.args) = true
  received1 : Receives h.sta h.in1 (h.msg1 suite)
  prfInput : h.in1.env.prfInput = true
  counter1 : counterValue h.sta.entry.rCounter < counterValue h.ap.rCounter
  received3 : Receives h.sta h.in3 (h.msg3 suite)
  counter3 : counterValue h.ap.rCounter < counterValue h.counter3
  sender : h.sender3.mpool = true ∧ h.sender3.outBuffer = true ∧ h.sender3.memory.Ample
  memory : h.in3.env.memory.Ample
  rsnIe : h.args.rsnIe = [] ∨ IsRsnIe h.args.rsnIe
  idx : 1 ≤ h.args.defaultKeyIdx.toNat ∧ h.args.defaultKeyIdx.toNat ≤ 3
  fits : fits (frameVer h.ap h.args) h.args.rsnIe.length (gtkLen h.args.groupKeyWepStatus)

theorem messageKind_constructKeyInfo (hk : k = .pairMsg1 ∨ k = .pairMsg3 ∨ k = .groupMsg1) (b : Bool)
    (ver : BitVec 3) (idx : Byte) (n : ℕ) : messageKind (constructKeyInfo b ver k idx) n = some k := by
  rcases hk with rfl | rfl | rfl <;> cases b <;> rfl

/-- The dispatcher takes a built frame of the authenticator for what it is. -/
theorem dispatch_receives (hk : k = .pairMsg1 ∨ k = .pairMsg3 ∨ k = .groupMsg1) (hw : Waits s)
    (hr : Receives s i (constructEapolMsg suite env e k a))
    (hver : versionChecked s.entry.wepStatus (frameVer e a) = true) : dispatch s i.elem = some k := by
  have hf := headed_constructEapolMsg suite env e k a
  have hinfo := hf.info
  have htype : ¬ (i.elem.packet.type ≠ 0xfe ∧ i.elem.packet.type ≠ 2) := by
    rw [hr.packet, hf.type]
    split_ifs <;> decide
  rw [← hr.packet] at hinfo
  have hwhole : ¬ i.elem.msgLen - 24 - 8 < i.elem.packet.eapolLen := by
    rw [hr.packet]
    exact Nat.not_lt.2 hr.whole
  have hpro : i.elem.packet.proVer = 1 := hr.packet ▸ hf.proVer
  have hver' : versionChecked s.entry.wepStatus
      (constructKeyInfo e.authMode.bWpa2 (frameVer e a) k a.defaultKeyIdx).keyDescVer = true := hver
  unfold dispatch
  simp only [hr.addr, hw.peer, hw.wpa, hwhole, hpro, htype, hver', hw.assoc, hw.started, hinfo,
    messageKind_constructKeyInfo hk]
  simp

theorem FourWay.Undisturbed.sta1_eq {h : FourWay} (hu : h.Undisturbed suite) :
    h.sta1 suite = acceptMsg1 suite h.in1.env (h.msg1 suite) h.sta ∧
      ∃ m2, (peerPairMsg1Action suite h.in1.env h.in1.elem h.sta).2 = some m2 ∧ m2.keyNonce = h.in1.env.sNonce ∧
        replayDiff .pairMsg2 h.ap m2 = false ∧ ∀ m, micDiff suite m (h.ap2 suite) m2 = false := by
  have hr := hu.received1
  have hf : Headed h.ap .pairMsg1 h.args (h.msg1 suite) := headed_constructEapolMsg _ _ _ _ _
  have hd : dispatch h.sta h.in1.elem = some .pairMsg1 := dispatch_receives (.inl rfl) hu.waits hr hu.version
  have hfresh : replayDiff .pairMsg1 h.sta.entry (h.msg1 suite) = false :=
    (fresh_iff rfl).2 (.inl (by rw [hf.counter]; exact hu.counter1))
  have hsanity : peerWpaMessageSanity suite h.in1.env .pairMsg1 (h.msg1 suite) h.sta = (true, h.sta) := by
    simp only [peerWpaMessageSanity, hr.keyData, hfresh]
    simp [FourWay.msg1, constructEapolMsg, constructEapolKeyData]
  have hguard : ¬ (h.sta.entry.isPeer = false ∨ h.in1.elem.msgLen < minMsgLen) := by
    have := hr.long
    simp only [hu.waits.peer]
    simpa using this
  have haction : peerPairMsg1Action suite h.in1.env h.in1.elem h.sta = (acceptMsg1 suite h.in1.env (h.msg1 suite) h.sta,
      some (constructEapolMsg suite h.in1.env.reply (acceptMsg1 suite h.in1.env (h.msg1 suite) h.sta).entry .pairMsg2
        { replyArgs h.sta 0 with keyNonce := h.in1.env.sNonce, rsnIe := h.sta.staCfg.rsnIe })) := by
    simp only [peerPairMsg1Action, if_neg hguard, hr.packet, hsanity, hr.mpool, if_true]
    rfl
  refine ⟨?_, _, congrArg Prod.snd haction, ?_, ?_, fun m => ?_⟩
  · rw [FourWay.sta1, wpaEAPOLKeyAction, hu.waits.running, hd]
    exact congrArg Prod.fst haction
  · exact (headed_constructEapolMsg _ _ _ _ _).nonce (.inr (.inl rfl))
  · rw [replayDiff, bne_eq_false_iff_eq, (headed_constructEapolMsg _ _ _ _ _).counter]
    exact hf.counter
  · refine micDiff_constructEapolMsg (by decide) hr.reply ?_ m
    rw [acceptMsg1, hu.prfInput, if_pos rfl, hf.nonce (.inl rfl)]
    rfl

theorem FourWay.Undisturbed.exchange {h : FourWay} (hu : h.Undisturbed suite) :
    Exchange h.sender3 (h.ap3 suite) .pairMsg3 h.args h.in3.env (h.sta1 suite) := by
  have hf : Headed h.ap .pairMsg1 h.args (h.msg1 suite) := headed_constructEapolMsg _ _ _ _ _
  have hb : (h.ap3 suite).authMode.bWpa2 = true := congrArg AuthMode.bWpa2 hu.mode ▸ hu.wpa2
  rw [hu.sta1_eq.1]
  exact
    { kind := by rw [hb]; rfl
      ptk := by rw [acceptMsg1, hu.prfInput, if_pos rfl, hf.nonce (.inl rfl)]; rfl
      mode := congrArg AuthMode.bWpa2 hu.mode.symm
      counter := .inl (by rw [acceptMsg1, hf.counter]; exact hu.counter3)
      mpool := hu.sender.1
      outBuffer := hu.sender.2.1
      senderMemory := hu.sender.2.2
      keyData := hu.received3.keyData
      memory := hu.memory
      rsnIe := hu.rsnIe
      idx := hu.idx }

/-- A frame of the sample authenticator that arrives whole. -/
def sampleArrival (f : EapolPacket) : Input where
  env := (sampleInput .pairMsg1 1 7 5).env
  elem := { msgLen := 65600, addr2 := fun _ => 0x11, packet := f, enough := by decide }

theorem sampleArrival_receives (f : EapolPacket) (haddr : s.entry.addr = fun _ => 0x11) :
    Receives s (sampleArrival f) f where
  packet := rfl
  addr := haddr.symm
  whole := by
    have := f.bodyLen.isLt
    show f.bodyLen.toNat + 4 ≤ 65600 - 24 - 8
    omega
  long := show minMsgLen ≤ 65600 by decide
  keyData := rfl
  mpool := rfl
  reply := rfl

def sampleFourWay : FourWay where
  sta := sampleSta .encryption3Enabled
  ap := sampleSender
  counter3 := fun i => if i.1 = 7 then 2 else 0
  args := sampleArgs 14
  sender1 := ⟨true, true, sampleMemory⟩
  sender3 := ⟨true, true, sampleMemory⟩
  in1 := sampleArrival (constructEapolMsg sampleSuite ⟨true, true, sampleMemory⟩ sampleSender .pairMsg1 (sampleArgs 14))
  in3 := sampleArrival (constructEapolMsg sampleSuite ⟨true, true, sampleMemory⟩
    { sampleSender with
      ptk := sampleSuite.wpaDerivePTK (zeros 32) (fun _ => 7) (fun _ => 0x11) (fun _ => 5) (fun _ => 0x22)
      rCounter := fun i => if i.1 = 7 then 2 else 0 } .pairMsg3 (sampleArgs 14))

theorem sampleFourWay_undisturbed : sampleFourWay.Undisturbed sampleSuite where
  waits := ⟨rfl, rfl, rfl, rfl, by decide⟩
  wpa2 := rfl
  mode := rfl
  version := rfl
  received1 := sampleArrival_receives _ rfl
  prfInput := rfl
  counter1 := by decide
  received3 := sampleArrival_receives _ rfl
  counter3 := by decide
  sender := ⟨rfl, rfl, rfl, rfl, rfl⟩
  memory := ⟨rfl, rfl, rfl⟩
  rsnIe := .inr ⟨rfl, by decide⟩
  idx := ⟨show 1 ≤ 2 by decide, show 2 ≤ 3 by decide⟩
  fits := by unfold fits; decide

end Mt7610u.Wpa
