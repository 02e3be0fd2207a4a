import Mt7610u.Mgmt.BeaconSanity

/-! # Where the two beacon parsers agree -/

namespace Mt7610u.Mgmt.Beacon

open Mt7610u.Lib Mt7610u.Mlme

/-! ### What is compared -/

structure Alike (o : OldState) (n : NewState) : Prop where
  addr2 : Lib.read o.out.addr2 6 = Lib.read n.ieList.addr2 6
  bssid : Lib.read o.out.bssid 6 = Lib.read n.ieList.bssid 6
  ssid : o.out.ssid = n.ieList.ssid
  ssidLen : o.out.ssidLen = n.ieList.ssidLen
  bssType : o.out.bssType = n.ieList.bssType
  beaconPeriod : o.out.beaconPeriod = n.ieList.beaconPeriod
  channel : o.out.channel = n.ieList.channel
  newChannel : o.out.newChannel = n.ieList.newChannel
  timestamp : Lib.read o.out.timestamp 8 = Lib.read n.ieList.timestamp 8
  cfParm : o.out.cfParm = n.ieList.cfParm
  atimWin : o.out.atimWin = n.ieList.atimWin
  capabilityInfo : o.out.capabilityInfo = n.ieList.capabilityInfo
  erp : o.out.erp = n.ieList.erp
  dtimCount : o.out.dtimCount = n.ieList.dtimCount
  dtimPeriod : o.out.dtimPeriod = n.ieList.dtimPeriod
  bcastFlag : o.out.bcastFlag = n.ieList.bcastFlag
  messageToMe : o.out.messageToMe = n.ieList.messageToMe
  extRateLen : o.out.extRateLen = n.ieList.extRateLen
  extRate : Lib.read o.out.extRate n.ieList.extRateLen = Lib.read n.ieList.extRate n.ieList.extRateLen
  ckipFlag : o.out.ckipFlag = n.ieList.ckipFlag
  aironetCellPowerLimit : o.out.aironetCellPowerLimit = n.ieList.aironetCellPowerLimit
  edcaParm : o.out.edcaParm = n.ieList.edcaParm
  qbssLoad : o.out.qbssLoad = n.ieList.qbssLoad
  qosCapability : o.out.qosCapability = n.ieList.qosCapability
  ralinkIe : o.out.ralinkIe = n.ieList.ralinkIe
  htCapabilityLen : o.out.htCapabilityLen = n.ieList.htCapabilityLen
  preNHtCapabilityLen : o.out.preNHtCapabilityLen = n.ieList.preNHtCapabilityLen
  htCapability : o.out.htCapability = n.ieList.htCapability
  addHtInfoLen : o.out.addHtInfoLen = n.ieList.addHtInfoLen
  addHtInfo : o.out.addHtInfo = n.ieList.addHtInfo
  newExtChannelOffset : o.out.newExtChannelOffset = n.ieList.newExtChannelOffset
  lengthVIE : o.loc.lengthVIE = n.loc.lengthVIE
  vie : Lib.read o.vie n.loc.lengthVIE = Lib.read n.vie n.loc.lengthVIE

structure SameRates (o : OldState) (n : NewState) : Prop where
  supRateLen : o.out.supRateLen = n.ieList.supRateLen
  supRate : Lib.read o.out.supRate n.ieList.supRateLen = Lib.read n.ieList.supRate n.ieList.supRateLen

structure Agree (o : OldState) (n : NewState) : Prop extends Alike o n, SameRates o n where
  extCapInfo : ∀ j < 4, o.out.extCapInfo j = n.ieList.extCapInfo j

/-- The output parameters as `rtmp_dbg_sanity_diff` hands them to the old parser; it leaves the others as they are. -/
structure Prepared (o : OldOut) : Prop where
  ssid : o.ssid = zeroMemory
  ssidLen : o.ssidLen = 0
  channel : o.channel = 0
  cfParm : o.cfParm = .zero
  edcaParm : o.edcaParm = .zero
  qbssLoad : o.qbssLoad = .zero
  qosCapability : o.qosCapability = .zero
  htCapability : o.htCapability = zeroMemory
  addHtInfo : o.addHtInfo = zeroMemory
  preNHtCapabilityLen : o.preNHtCapabilityLen = 0

/-- A parser returns `TRUE`. -/
def Accepts {σ : Type} (r : Option (Bool × Option σ)) : Prop := ∃ s, r = some (true, s)

/-- The new parser, on a list of zeros, accepts exactly what the old one accepts, and then leaves the same data. -/
def ParsersAgree (pAd : Adapter) (a : Arrival) (out : OldOut) (vieOld vieNew : ℕ → Byte) : Prop :=
  (Accepts (peerBeaconAndProbeRspSanity pAd a .zero vieNew) ↔
    Accepts (peerBeaconAndProbeRspSanityOld pAd a out vieOld)) ∧
  ∀ o n, peerBeaconAndProbeRspSanityOld pAd a out vieOld = some (true, some o) →
    peerBeaconAndProbeRspSanity pAd a .zero vieNew = some (true, some n) → Agree o n

/-! ### The extended-capability elements of a frame -/

structure Scan where
  ssid : Bool
  rates : Bool
  channel : Bool
  lengthVIE : ℕ
  wscLen : ℕ
  exts : List ℕ

/-- The element at `p` is one of those that are kept. -/
def Scan.keep (s : Scan) (a : Arrival) (p : ℕ) : Scan := { s with lengthVIE := s.lengthVIE + (a.len p + 2) }

/-- The element at `p`: whether it ends the frame, is kept, or has extended capabilities. -/
def scanArm (pAd : Adapter) (a : Arrival) (p : ℕ) (s : Scan) : Flow Scan :=
  let len := a.len p
  match Eid.ofByte (a.eid p) with
  | .ssid => if s.ssid then .next s else if len ≤ 32 then .next { s with ssid := true } else .sanityCheck s
  | .suppRates => if len ≤ 12 then .next { s with rates := true } else .sanityCheck s
  | .dsParm =>
    if len = 1 ∧ (pAd.ifOpModeOnSta → pAd.channelSanity (a.octet p 0)) then .next { s with channel := true }
    else .sanityCheck s
  | .cfParm => if len = 6 then .next s else .reject
  | .ibssParm => if len = 2 then .next s else .reject
  | .htCap => .next (if 26 ≤ len ∧ pAd.ifOpModeOnSta then s.keep a p else s)
  | .addHt => .next (if 22 ≤ len ∧ pAd.ifOpModeOnSta then s.keep a p else s)
  | .vendorSpecific =>
    if a.hasOui p wpaOui then .next (s.keep a p)
    else if a.hasOui p wpsOui ∧ a.peerWscIe ∧ s.wscLen < 512 then
      if len < 4 then .fault else .next { s with wscLen := s.wscLen + (len - 4) }
    else .next s
  | .rsn => .next (if equalMemory (fun i => a.octet p (2 + i)) (mem rsnOui) 3 then s.keep a p else s)
  | .country => .next (if pAd.flags.countryIe then s.keep a p else s)
  | .qbssLoad => .next (if len = 5 then s.keep a p else s)
  | .extCapability => .next (if 1 ≤ len then { s with exts := p :: s.exts } else s)
  | _ => .next s

/-- Whether a frame has all that makes it acceptable, and where its extended capabilities are, the last first. -/
def scanBeacon (pAd : Adapter) (a : Arrival) : Option (Bool × List ℕ) :=
  match elements a Scan.lengthVIE (scanArm pAd a) a.msgLen firstElement ⟨false, false, false, 0, 0, []⟩ with
  | .next s => some (s.ssid && s.rates && (s.channel || 14 < pAd.latchRfChannel.toNat), s.exts)
  | .sanityCheck s => some (s.ssid && s.rates && s.channel, s.exts)
  | .reject => some (false, [])
  | .fault => none

/-- Octet `j` of the extended capabilities, from the last of the elements that has one. -/
def carried (a : Arrival) : List ℕ → ℕ → Byte
  | [], _ => 0
  | p :: exts, j => if j < a.len p then a.octet p j else carried a exts j

/-- Octet `j` behind the header of the last of the elements. -/
def behindLast (a : Arrival) : List ℕ → ℕ → Byte
  | [], _ => 0
  | p :: _, j => a.octet p j

/-! ### The loop -/

inductive Flow.Rel {α β γ : Type} (R : α → β → γ → Prop) : Flow α → Flow β → Flow γ → Prop
  | next {x y z} (h : R x y z) : Flow.Rel R (.next x) (.next y) (.next z)
  | sanityCheck {x y z} (h : R x y z) : Flow.Rel R (.sanityCheck x) (.sanityCheck y) (.sanityCheck z)
  | reject : Flow.Rel R .reject .reject .reject
  | fault : Flow.Rel R .fault .fault .fault

theorem elements_rel {α β γ : Type} {a : Arrival} {R : α → β → γ → Prop} {f : ℕ → α → Flow α}
    {g : ℕ → β → Flow β} {h : ℕ → γ → Flow γ} {lf : α → ℕ} {lg : β → ℕ} {lh : γ → ℕ}
    (hlen : ∀ x y z, R x y z → lf x = lg y ∧ lf x = lh z)
    (hstep : ∀ p x y z, R x y z → Flow.Rel R (f p x) (g p y) (h p z)) (turns : ℕ) :
    ∀ p x y z, R x y z → Flow.Rel R (elements a lf f turns p x) (elements a lg g turns p y)
      (elements a lh h turns p z) := by
  induction turns with
  | zero =>
    intro p x y z hR
    exact .next hR
  | succ turns ih =>
    intro p x y z hR
    obtain ⟨hg, hh⟩ := hlen x y z hR
    unfold elements
    rw [← hg, ← hh]
    split
    · split
      · exact .next hR
      · have hs := hstep p x y z hR
        generalize f p x = u, g p y = v, h p z = w at hs
        cases hs with
        | next hR' => exact ih _ _ _ _ hR'
        | sanityCheck hR' => exact .sanityCheck hR'
        | reject => exact .reject
        | fault => exact .fault
    · exact .next hR

theorem elements_turns {σ : Type} {a : Arrival} {lengthVIE : σ → ℕ} {arm : ℕ → σ → Flow σ} (turns : ℕ) :
    ∀ p s more, a.msgLen ≤ p + turns →
      elements a lengthVIE arm (turns + more) p s = elements a lengthVIE arm turns p s := by
  induction turns with
  | zero =>
    intro p s more h
    cases more with
    | zero => rfl
    | succ more =>
      rw [Nat.zero_add]
      unfold elements
      rw [if_neg (by omega)]
  | succ turns ih =>
    intro p s more h
    rw [Nat.add_right_comm]
    unfold elements
    split
    · split
      · rfl
      · cases arm p s with
        | next s => exact ih _ _ _ (by omega)
        | sanityCheck s => rfl
        | reject => rfl
        | fault => rfl
    · rfl

/-! ### The elements, one by one -/

/-- The mandatory elements in `Sanity`. -/
def sanityBits (ssid rates channel : Bool) : Byte :=
  (if ssid then 1#8 else 0#8) ||| (if rates then 2#8 else 0#8) ||| if channel then 4#8 else 0#8

theorem sanityBits_ssid {ssid rates channel : Bool} : sanityBits ssid rates channel &&& 1#8 ≠ 0#8 ↔ ssid := by
  revert ssid rates channel
  decide

theorem sanityBits_channel {ssid rates channel : Bool} :
    sanityBits ssid rates channel &&& 4#8 = 0#8 ↔ channel = false := by
  revert ssid rates channel
  decide

theorem sanityBits_eq_seven {ssid rates channel : Bool} :
    sanityBits ssid rates channel = 7 ↔ (ssid && rates && channel) := by
  revert ssid rates channel
  decide

theorem sanityBits_or_one (ssid rates channel : Bool) :
    sanityBits ssid rates channel ||| 1#8 = sanityBits true rates channel := by
  revert ssid rates channel
  decide

theorem sanityBits_or_two (ssid rates channel : Bool) :
    sanityBits ssid rates channel ||| 2#8 = sanityBits ssid true channel := by
  revert ssid rates channel
  decide

theorem sanityBits_or_four (ssid rates channel : Bool) :
    sanityBits ssid rates channel ||| 4#8 = sanityBits ssid rates true := by
  revert ssid rates channel
  decide

structure Sim (a : Arrival) (o : OldState) (n : NewState) (s : Scan) : Prop extends Alike o n where
  loc : o.loc = n.loc
  sanity : n.loc.sanity = sanityBits s.ssid s.rates s.channel
  scanVIE : n.loc.lengthVIE = s.lengthVIE
  peerWscIe : n.loc.pPeerWscIe.isSome = a.peerWscIe
  wscLen : n.loc.peerWscIeLen = s.wscLen
  rates : s.rates → o.out.supRateLen = n.ieList.supRateLen ∧
    Lib.read o.out.supRate n.ieList.supRateLen = Lib.read n.ieList.supRate n.ieList.supRateLen
  extOld : ∀ j < 4, o.out.extCapInfo j = carried a s.exts j
  extNew : ∀ j < 4, n.ieList.extCapInfo j = behindLast a s.exts j

theorem read_congr {m m' : ℕ → Byte} {n : ℕ} : Lib.read m n = Lib.read m' n ↔ ∀ i < n, m i = m' i := by
  simp [Lib.read]

theorem read_moveMemory (m m' src : ℕ → Byte) (n : ℕ) :
    Lib.read (moveMemory m src n) n = Lib.read (moveMemory m' src n) n :=
  read_congr.2 fun i hi => by simp [moveMemory, hi]

namespace Sim

variable {a : Arrival} {o : OldState} {n : NewState} {s : Scan} {p : ℕ}

theorem keep (h : Sim a o n s) (p : ℕ) : Sim a (o.copyVIE a p) (n.copyVIE a p) (s.keep a p) where
  toAlike :=
    { h.toAlike with
      lengthVIE := congrArg (· + (a.len p + 2)) h.lengthVIE
      vie := by
        have hlen : (a.element p).length = a.len p + 2 := length_readAt _ _ _
        have hnew := read_copy_append n.vie n.loc.lengthVIE (a.element p)
        have hold := read_copy_append o.vie n.loc.lengthVIE (a.element p)
        rw [hlen] at hnew hold
        show Lib.read (copy o.vie o.loc.lengthVIE _) (n.loc.lengthVIE + _) =
          Lib.read (copy n.vie n.loc.lengthVIE _) (n.loc.lengthVIE + _)
        rw [h.lengthVIE, hold, hnew, h.vie] }
  loc := by
    simp only [OldState.copyVIE, NewState.copyVIE, h.loc]
  sanity := h.sanity
  scanVIE := congrArg (· + (a.len p + 2)) h.scanVIE
  peerWscIe := h.peerWscIe
  wscLen := h.wscLen
  rates := h.rates
  extOld := h.extOld
  extNew := h.extNew

theorem vhtCap (h : Sim a o n s) (pAd : Adapter) (len : ℕ) (octet : ℕ → Byte) :
    Flow.Rel (Sim a) (.next o) (vhtCapArm pAd len octet n) (.next s) := by
  unfold vhtCapArm
  split
  · exact .next { h with }
  · exact .next h

theorem hasOui_octet {a : Arrival} {oui : List Byte} (h : a.hasOui p oui) {i : ℕ} (hi : i < oui.length) :
    a.octet p i = mem oui i := by
  have hread : Lib.read (a.octet p) oui.length = Lib.read (mem oui) oui.length := of_decide_eq_true h
  exact read_congr.1 hread i hi

theorem wpa_or_wps {a : Arrival} (h : a.hasOui p wpaOui ∨ a.hasOui p wpsOui) :
    a.octet p 1 = 0x50 ∧ a.octet p 3 ≠ 2 := by
  rcases h with h | h
  · rw [hasOui_octet h (i := 1) (by decide), hasOui_octet h (i := 3) (by decide)]
    decide
  · rw [hasOui_octet h (i := 1) (by decide), hasOui_octet h (i := 3) (by decide)]
    decide

theorem not_wpa_wps {a : Arrival} (h : a.hasOui p ralinkOui ∨ a.hasOui p preNHtOui ∨ a.hasOui p wmeParmElem ∨
    a.hasOui p wmeInfoElem) : ¬ a.hasOui p wpaOui ∧ ¬ a.hasOui p wpsOui := by
  have hno : ¬ (a.hasOui p wpaOui ∨ a.hasOui p wpsOui) := by
    intro hw
    obtain ⟨h1, h3⟩ := wpa_or_wps hw
    rcases h with h | h | h | h
    · exact absurd ((hasOui_octet h (i := 1) (by decide)).symm.trans h1) (by decide)
    · exact absurd ((hasOui_octet h (i := 1) (by decide)).symm.trans h1) (by decide)
    · exact h3 (hasOui_octet h (i := 3) (by decide))
    · exact h3 (hasOui_octet h (i := 3) (by decide))
  exact not_or.1 hno

theorem vendor (pAd : Adapter) (h : Sim a o n s) (hv : Eid.ofByte (a.eid p) = .vendorSpecific) :
    Flow.Rel (Sim a) (oldArm pAd a p o) (newArm pAd a p n) (scanArm pAd a p s) := by
  obtain ⟨out, vieOld, loc⟩ := o
  obtain ⟨ieList, vieNew, loc'⟩ := n
  obtain rfl : loc = loc' := h.loc
  have hhtLen : out.htCapabilityLen = ieList.htCapabilityLen := h.htCapabilityLen
  unfold oldArm newArm scanArm
  rw [hv]
  dsimp only
  have hskip (hwps : ¬ a.hasOui p wpsOui) : ¬ (a.hasOui p wpsOui ∧ a.peerWscIe ∧ s.wscLen < 512) :=
    fun hc => hwps hc.1
  by_cases hral : a.hasOui p ralinkOui ∧ a.len p = 7
  · obtain ⟨hwpa, hwps⟩ := not_wpa_wps (Or.inl hral.1)
    rw [if_pos hral, if_pos hral, if_neg hwpa, if_neg (hskip hwps)]
    exact .next { h with ralinkIe := rfl }
  rw [if_neg hral, if_neg hral]
  by_cases hpre : ieList.htCapabilityLen = 0 ∧ a.hasOui p preNHtOui ∧ 4 ≤ a.len p ∧ pAd.opModeSta
  · obtain ⟨hwpa, hwps⟩ := not_wpa_wps (Or.inr (Or.inl hpre.2.1))
    have hpreOld : out.htCapabilityLen = 0 ∧ a.hasOui p preNHtOui ∧ 4 ≤ a.len p ∧ pAd.opModeSta := by
      rw [hhtLen]
      exact hpre
    rw [if_pos hpre, if_pos hpreOld, if_neg hwpa, if_neg (hskip hwps)]
    by_cases h52 : a.octet p 3 = 52 ∧ 26 ≤ a.len p
    · have h51 (htLen : ℕ) : ¬ (a.octet p 3 = 51 ∧ 30 ≤ a.len p ∧ htLen = 0) :=
        fun hc => absurd (h52.1.symm.trans hc.1) (by decide)
      simp only [if_pos h52, if_neg (h51 _)]
      have hmove := congrArg (fun m => moveMemory m (fun i => a.octet p (4 + i)) 22) h.addHtInfo
      exact .next { h with addHtInfo := hmove, addHtInfoLen := rfl }
    · by_cases h51 : a.octet p 3 = 51 ∧ 30 ≤ a.len p ∧ ieList.htCapabilityLen = 0
      · have h51Old : a.octet p 3 = 51 ∧ 30 ≤ a.len p ∧ out.htCapabilityLen = 0 := by
          rw [hhtLen]
          exact h51
        simp only [if_neg h52, if_pos h51, if_pos h51Old]
        have hmove := congrArg (fun m => moveMemory m (fun i => a.octet p (4 + i)) 26) h.htCapability
        exact .next { h with htCapability := hmove, preNHtCapabilityLen := rfl }
      · have h51Old : ¬ (a.octet p 3 = 51 ∧ 30 ≤ a.len p ∧ out.htCapabilityLen = 0) := by
          rw [hhtLen]
          exact h51
        simp only [if_neg h52, if_neg h51, if_neg h51Old]
        exact .next h
  have hpreOld : ¬ (out.htCapabilityLen = 0 ∧ a.hasOui p preNHtOui ∧ 4 ≤ a.len p ∧ pAd.opModeSta) := by
    rw [hhtLen]
    exact hpre
  rw [if_neg hpre, if_neg hpreOld]
  by_cases hwpa : a.hasOui p wpaOui
  · rw [if_pos hwpa, if_pos hwpa, if_pos hwpa]
    exact .next (h.keep p)
  rw [if_neg hwpa, if_neg hwpa, if_neg hwpa]
  by_cases hparm : a.hasOui p wmeParmElem ∧ a.len p = 24
  · obtain ⟨-, hwps⟩ := not_wpa_wps (Or.inr (Or.inr (Or.inl hparm.1)))
    rw [if_pos hparm, if_pos hparm, if_neg (hskip hwps)]
    exact .next { h with edcaParm := congrArg (fun e : EdcaParm => e.ofParmElem (a.octet p)) h.edcaParm }
  rw [if_neg hparm, if_neg hparm]
  by_cases hinfo : a.hasOui p wmeInfoElem ∧ a.len p = 7
  · obtain ⟨-, hwps⟩ := not_wpa_wps (Or.inr (Or.inr (Or.inr hinfo.1)))
    rw [if_pos hinfo, if_pos hinfo, if_neg (hskip hwps)]
    exact .next { h with edcaParm := congrArg (fun e : EdcaParm => e.ofInfoElem (a.octet p)) h.edcaParm }
  rw [if_neg hinfo, if_neg hinfo]
  by_cases hwps : a.hasOui p wpsOui
  · rw [if_pos hwps, if_pos hwps]
    have hbuf : loc.pPeerWscIe.isSome = a.peerWscIe := h.peerWscIe
    have hwsc : loc.peerWscIeLen = s.wscLen := h.wscLen
    cases hloc : loc.pPeerWscIe with
    | none =>
      have hno : ¬ (a.hasOui p wpsOui ∧ a.peerWscIe ∧ s.wscLen < 512) := by
        rw [← hbuf, hloc]
        simp
      rw [if_neg hno]
      exact .next h
    | some wsc =>
      have hbuf' : a.peerWscIe = true := by rw [← hbuf, hloc]; rfl
      dsimp only
      rw [hwsc]
      by_cases hroom : s.wscLen < 512
      · have hyes : a.hasOui p wpsOui ∧ a.peerWscIe ∧ s.wscLen < 512 := ⟨hwps, hbuf', hroom⟩
        rw [if_pos hroom, if_pos hroom, if_pos hyes]
        split
        · exact .fault
        · exact .next { h with loc := rfl, peerWscIe := hbuf'.symm, wscLen := rfl }
      · have hno : ¬ (a.hasOui p wpsOui ∧ a.peerWscIe ∧ s.wscLen < 512) := fun hc => hroom hc.2.2
        rw [if_neg hroom, if_neg hroom, if_neg hno]
        exact .next h
  · rw [if_neg hwps, if_neg hwps, if_neg (hskip hwps)]
    exact .next h

theorem arm (pAd : Adapter) (h : Sim a o n s) (p : ℕ) :
    Flow.Rel (Sim a) (oldArm pAd a p o) (newArm pAd a p n) (scanArm pAd a p s) := by
  by_cases hvendor : Eid.ofByte (a.eid p) = .vendorSpecific
  · exact h.vendor pAd hvendor
  obtain ⟨out, vieOld, loc⟩ := o
  obtain ⟨ieList, vieNew, loc'⟩ := n
  obtain rfl : loc = loc' := h.loc
  have hsanity : loc.sanity = sanityBits s.ssid s.rates s.channel := h.sanity
  unfold oldArm newArm scanArm
  cases heid : Eid.ofByte (a.eid p) with
  | ssid =>
    dsimp only
    rw [hsanity]
    simp only [sanityBits_ssid, sanityBits_or_one]
    split
    · exact .next h
    · split
      · exact .next { h with
          ssid := by
            show moveMemory out.ssid _ _ = moveMemory ieList.ssid _ _
            rw [show out.ssid = ieList.ssid from h.ssid]
          ssidLen := rfl
          loc := rfl
          sanity := rfl }
      · exact .sanityCheck h
  | suppRates =>
    dsimp only
    rw [hsanity, sanityBits_or_two]
    split
    · exact .next { h with
        loc := rfl
        sanity := rfl
        rates := fun _ => ⟨rfl, read_moveMemory _ _ _ _⟩ }
    · exact .sanityCheck h
  | htCap =>
    dsimp only
    by_cases hlen : 26 ≤ a.len p
    · have hcap : moveMemory out.htCapability (a.octet p) 26 = moveMemory ieList.htCapability (a.octet p) 26 := by
        rw [show out.htCapability = ieList.htCapability from h.htCapability]
      rw [if_pos hlen, if_pos hlen]
      by_cases hsta : pAd.ifOpModeOnSta
      · rw [if_pos hsta, if_pos hsta, if_pos ⟨hlen, hsta⟩]
        refine .next (keep ?_ p)
        exact { h with htCapability := hcap, htCapabilityLen := rfl, preNHtCapabilityLen := rfl }
      · rw [if_neg hsta, if_neg hsta, if_neg fun hc => hsta hc.2]
        exact .next { h with htCapability := hcap, htCapabilityLen := rfl }
    · rw [if_neg hlen, if_neg hlen, if_neg fun hc => hlen hc.1]
      exact .next h
  | addHt =>
    dsimp only
    by_cases hlen : 22 ≤ a.len p
    · have hinfo : moveMemory out.addHtInfo (a.octet p) 22 = moveMemory ieList.addHtInfo (a.octet p) 22 := by
        rw [show out.addHtInfo = ieList.addHtInfo from h.addHtInfo]
      rw [if_pos hlen, if_pos hlen]
      by_cases hsta : pAd.ifOpModeOnSta
      · rw [if_pos hsta, if_pos hsta, if_pos ⟨hlen, hsta⟩]
        refine .next (keep ?_ p)
        exact { h with addHtInfo := hinfo, addHtInfoLen := rfl, loc := rfl }
      · rw [if_neg hsta, if_neg hsta, if_neg fun hc => hsta hc.2]
        exact .next { h with addHtInfo := hinfo, addHtInfoLen := rfl, loc := rfl }
    · rw [if_neg hlen, if_neg hlen, if_neg fun hc => hlen hc.1]
      exact .next h
  | secondaryChOffset =>
    dsimp only
    split
    · exact .next { h with newExtChannelOffset := rfl }
    · exact .next h
  | dsParm =>
    dsimp only
    rw [hsanity, sanityBits_or_four]
    by_cases hlen : a.len p = 1
    · rw [if_pos hlen, if_pos hlen]
      by_cases hch : pAd.ifOpModeOnSta → pAd.channelSanity (a.octet p 0)
      · have hok : ¬ (pAd.ifOpModeOnSta && !pAd.channelSanity (a.octet p 0)) := by
          simpa using hch
        rw [if_neg hok, if_neg hok, if_pos ⟨hlen, hch⟩]
        exact .next { h with channel := rfl, loc := rfl, sanity := rfl }
      · have hbad : pAd.ifOpModeOnSta && !pAd.channelSanity (a.octet p 0) := by
          simpa using hch
        rw [if_pos hbad, if_pos hbad, if_neg fun hc => hch hc.2]
        exact .sanityCheck { h with channel := rfl }
    · rw [if_neg hlen, if_neg hlen, if_neg fun hc => hlen hc.1]
      exact .sanityCheck h
  | cfParm =>
    dsimp only
    split
    · exact .next { h with cfParm := rfl }
    · exact .reject
  | ibssParm =>
    dsimp only
    split
    · exact .next { h with atimWin := rfl }
    · exact .reject
  | tim =>
    dsimp only
    have hbssid : equalMemory out.bssid pAd.commonBssid 6 = equalMemory ieList.bssid pAd.commonBssid 6 := by
      unfold equalMemory
      rw [show Lib.read out.bssid 6 = Lib.read ieList.bssid 6 from h.bssid]
    rw [hbssid]
    split
    · exact .next { h with bcastFlag := rfl, dtimCount := rfl, dtimPeriod := rfl, messageToMe := rfl }
    · exact .next h
  | channelSwitch =>
    dsimp only
    split
    · exact .next { h with newChannel := rfl }
    · exact .next h
  | extSuppRates =>
    dsimp only
    split
    · exact .next { h with extRateLen := rfl, extRate := read_moveMemory _ _ _ _ }
    · exact .next h
  | erp =>
    dsimp only
    split
    · exact .next { h with erp := rfl }
    · exact .next h
  | aironetCkip =>
    dsimp only
    split
    · exact .next h
    · exact .next { h with ckipFlag := rfl }
  | apTxPower =>
    dsimp only
    split
    · exact .next h
    · split
      · exact .next { h with aironetCellPowerLimit := rfl }
      · exact .next h
  | rsn =>
    dsimp only
    split
    · exact .next (h.keep p)
    · exact .next h
  | country =>
    dsimp only
    split
    · exact .next (h.keep p)
    · exact .next h
  | qbssLoad =>
    dsimp only
    split
    · refine .next (keep ?_ p)
      exact { h with qbssLoad := rfl }
    · exact .next h
  | extCapability =>
    dsimp only
    by_cases hlen : 1 ≤ a.len p
    · rw [if_pos hlen, if_pos hlen, if_pos hlen]
      refine .next { h with extOld := fun j hj => ?_, extNew := fun j hj => ?_ }
      · have hmin : j < min (a.len p) 4 ↔ j < a.len p := by omega
        show (if j < min (a.len p) 4 then a.octet p j else out.extCapInfo j) =
          if j < a.len p then a.octet p j else carried a s.exts j
        simp only [hmin, show out.extCapInfo j = carried a s.exts j from h.extOld j hj]
      · show (if j < 4 then a.octet p j else ieList.extCapInfo j) = a.octet p j
        rw [if_pos hj]
    · rw [if_neg hlen, if_neg hlen, if_neg hlen]
      exact h.vhtCap pAd _ _
  | vhtCap => exact h.vhtCap pAd _ _
  | vhtOp =>
    dsimp only
    split
    · exact .next { h with }
    · exact .next h
  | vendorSpecific => exact absurd heid hvendor
  | fhParm => exact .next h
  | other => exact .next h

theorem latchChannel (pAd : Adapter) (h : Sim a o n s) :
    Sim a (o.latchChannel pAd a) (n.latchChannel pAd a)
      { s with channel := s.channel || 14 < pAd.latchRfChannel.toNat } := by
  obtain ⟨out, vieOld, loc⟩ := o
  obtain ⟨ieList, vieNew, loc'⟩ := n
  obtain rfl : loc = loc' := h.loc
  have hsanity : loc.sanity = sanityBits s.ssid s.rates s.channel := h.sanity
  have hmissing : loc.sanity &&& 4#8 = 0#8 ↔ s.channel = false := by rw [hsanity]; exact sanityBits_channel
  unfold OldState.latchChannel NewState.latchChannel
  dsimp only
  by_cases hlatch : 14 < pAd.latchRfChannel.toNat ∧ loc.sanity &&& 4#8 = 0#8
  · have hset : (s.channel || decide (14 < pAd.latchRfChannel.toNat)) = true := by simp [hlatch.1]
    have hbits : loc.sanity ||| 4#8 = sanityBits s.ssid s.rates true := by rw [hsanity, sanityBits_or_four]
    rw [if_pos hlatch, if_pos hlatch, hset]
    exact { h with channel := rfl, loc := rfl, sanity := hbits }
  · rw [hmissing] at hlatch
    have hset : (s.channel || decide (14 < pAd.latchRfChannel.toNat)) = s.channel := by
      cases hc : s.channel with
      | true => rfl
      | false => simpa [hc] using hlatch
    rw [← hmissing] at hlatch
    rw [if_neg hlatch, if_neg hlatch, hset]
    exact h

theorem appendWsc (h : Sim a o n s) :
    Sim a o.appendWsc n.appendWsc { s with lengthVIE := n.appendWsc.loc.lengthVIE } := by
  obtain ⟨out, vieOld, loc⟩ := o
  obtain ⟨ieList, vieNew, loc'⟩ := n
  obtain rfl : loc = loc' := h.loc
  unfold OldState.appendWsc NewState.appendWsc
  dsimp only
  cases hwsc : loc.pPeerWscIe with
  | none => exact { h with scanVIE := rfl }
  | some wsc =>
    dsimp only
    split
    · have hlen : (wscElement wsc loc.peerWscIeLen).length = loc.peerWscIeLen + 6 := by
        simp only [wscElement, List.length_append, List.length_cons, List.length_nil, length_read]
        omega
      have hold := read_copy_append vieOld loc.lengthVIE (wscElement wsc loc.peerWscIeLen)
      have hnew := read_copy_append vieNew loc.lengthVIE (wscElement wsc loc.peerWscIeLen)
      rw [hlen] at hold hnew
      have hvie : Lib.read vieOld loc.lengthVIE = Lib.read vieNew loc.lengthVIE := h.vie
      exact { h with
        lengthVIE := rfl
        vie := hold.trans ((congrArg (· ++ _) hvie).trans hnew.symm)
        loc := rfl
        scanVIE := rfl
        peerWscIe := (congrArg Option.isSome hwsc).symm.trans h.peerWscIe }
    · exact { h with scanVIE := rfl }

theorem verdict (h : Sim a o n s) :
    decide (o.loc.sanity = 7) = (s.ssid && s.rates && s.channel) ∧
      decide (n.loc.sanity = 7) = (s.ssid && s.rates && s.channel) := by
  rw [h.loc, h.sanity, and_self, Bool.decide_congr sanityBits_eq_seven, Bool.decide_coe]

theorem start (pAd : Adapter) (a : Arrival) {out : OldOut} (h : Prepared out) (vieOld vieNew : ℕ → Byte) :
    Sim a ⟨out.start pAd a, vieOld, Locals.start a⟩ ⟨BcnIeList.zero.start a, vieNew, Locals.start a⟩
      ⟨false, false, false, 0, 0, []⟩ where
  addr2 := read_moveMemory _ _ _ _
  bssid := read_moveMemory _ _ _ _
  ssid := h.ssid
  ssidLen := h.ssidLen
  bssType := rfl
  beaconPeriod := rfl
  channel := h.channel
  newChannel := rfl
  timestamp := read_moveMemory _ _ _ _
  cfParm := congrArg (fun c : CfParm => { c with bValid := false }) h.cfParm
  atimWin := rfl
  capabilityInfo := rfl
  erp := rfl
  dtimCount := rfl
  dtimPeriod := rfl
  bcastFlag := rfl
  messageToMe := rfl
  extRateLen := rfl
  extRate := rfl
  ckipFlag := rfl
  aironetCellPowerLimit := rfl
  edcaParm := congrArg (fun e : EdcaParm => { e with bValid := false }) h.edcaParm
  qbssLoad := congrArg (fun q : QbssLoadParm => { q with bValid := false }) h.qbssLoad
  qosCapability := congrArg (fun q : QosCapabilityParm => { q with bValid := false }) h.qosCapability
  ralinkIe := rfl
  htCapabilityLen := rfl
  preNHtCapabilityLen := by
    show (if pAd.opModeSta then 0 else out.preNHtCapabilityLen) = 0
    rw [h.preNHtCapabilityLen, ite_self]
  htCapability := h.htCapability
  addHtInfoLen := rfl
  addHtInfo := h.addHtInfo
  newExtChannelOffset := rfl
  lengthVIE := rfl
  vie := rfl
  loc := rfl
  sanity := rfl
  scanVIE := rfl
  peerWscIe := by
    show (if a.peerWscIe then some zeroMemory else none : Option (ℕ → Byte)).isSome = a.peerWscIe
    cases a.peerWscIe <;> rfl
  wscLen := rfl
  rates := nofun
  extOld _ _ := rfl
  extNew _ _ := rfl

end Sim

/-! ### The results -/

section

variable (pAd : Adapter) (a : Arrival) {out : OldOut} (vieOld vieNew : ℕ → Byte)

/-- Either both parsers finish with the same verdict, which is that of the scan, or they both return early, or the
frame makes both copy a negative number of bytes. -/
theorem parsers_sim (h : Prepared out) :
    (∃ b o n s, peerBeaconAndProbeRspSanityOld pAd a out vieOld = some (b, some o) ∧
      peerBeaconAndProbeRspSanity pAd a .zero vieNew = some (b, some n) ∧
      scanBeacon pAd a = some (b, s.exts) ∧ Sim a o n s ∧ (b → s.rates)) ∨
    (peerBeaconAndProbeRspSanityOld pAd a out vieOld = some (false, none) ∧
      peerBeaconAndProbeRspSanity pAd a .zero vieNew = some (false, none) ∧ scanBeacon pAd a = some (false, [])) ∨
    (peerBeaconAndProbeRspSanityOld pAd a out vieOld = none ∧
      peerBeaconAndProbeRspSanity pAd a .zero vieNew = none ∧ scanBeacon pAd a = none) := by
  have hrun : Flow.Rel (Sim a) _ _ _ :=
    elements_rel (a := a) (fun _ _ _ hs => ⟨hs.lengthVIE, hs.lengthVIE.trans hs.scanVIE⟩)
      (fun p _ _ _ hs => hs.arm pAd p) a.msgLen firstElement _ _ _ (Sim.start pAd a h vieOld vieNew)
  unfold peerBeaconAndProbeRspSanityOld peerBeaconAndProbeRspSanity scanBeacon
  generalize elements a (fun s : OldState => s.loc.lengthVIE) _ _ _ _ = u at hrun ⊢
  generalize elements a (fun s : NewState => s.loc.lengthVIE) _ _ _ _ = v at hrun ⊢
  generalize elements a Scan.lengthVIE _ _ _ _ = w at hrun ⊢
  cases hrun with
  | @next o n s hs =>
    let s' : Scan :=
      { s with
        channel := s.channel || 14 < pAd.latchRfChannel.toNat
        lengthVIE := (newTail pAd a n).loc.lengthVIE }
    have htail : Sim a (oldTail pAd a o) (newTail pAd a n) s' := (hs.latchChannel pAd).appendWsc
    obtain ⟨hold, hnew⟩ := htail.verdict
    refine Or.inl ⟨_, oldTail pAd a o, newTail pAd a n, s', congrArg (fun b => some (b, _)) hold,
      congrArg (fun b => some (b, _)) hnew, rfl, htail, fun hb => ?_⟩
    exact ((Bool.and_eq_true _ _).mp ((Bool.and_eq_true _ _).mp hb).1).2
  | @sanityCheck o n s hs =>
    obtain ⟨hold, hnew⟩ := hs.verdict
    refine Or.inl ⟨_, o, n, s, congrArg (fun b => some (b, _)) hold, congrArg (fun b => some (b, _)) hnew, rfl, hs,
      fun hb => ?_⟩
    exact ((Bool.and_eq_true _ _).mp ((Bool.and_eq_true _ _).mp hb).1).2
  | reject => exact Or.inr (Or.inl ⟨rfl, rfl, rfl⟩)
  | fault => exact Or.inr (Or.inr ⟨rfl, rfl, rfl⟩)

theorem ParsersAgree.behindLast_eq {vieOld vieNew} (hagree : ParsersAgree pAd a out vieOld vieNew) (h : Prepared out)
    {exts : List ℕ} (hexts : scanBeacon pAd a = some (true, exts)) :
    ∀ j < 4, behindLast a exts j = carried a exts j := by
  intro j hj
  rcases parsers_sim pAd a vieOld vieNew h with ⟨b, o, n, s, hold, hnew, hscan, hsim, -⟩ | ⟨-, -, hscan⟩ |
    ⟨-, -, hscan⟩
  · rw [hscan] at hexts
    obtain ⟨rfl, rfl⟩ : b = true ∧ s.exts = exts := by simpa using hexts
    have hsame := (hagree.2 o n hold hnew).extCapInfo j hj
    rw [hsim.extOld j hj, hsim.extNew j hj] at hsame
    exact hsame.symm
  · simp [hscan] at hexts
  · simp [hscan] at hexts

/-- **The parsers agree exactly where the last extended capabilities are whole.** On the frames that the scan accepts,
the four octets behind the header of the last extended-capability element have to be the ones that these elements
carry. -/
theorem peerBeaconAndProbeRspSanity_agrees_iff (h : Prepared out) :
    ParsersAgree pAd a out vieOld vieNew ↔
      ∀ exts, scanBeacon pAd a = some (true, exts) → ∀ j < 4, behindLast a exts j = carried a exts j := by
  constructor
  · intro hagree exts hexts
    exact hagree.behindLast_eq pAd a h hexts
  intro hexts
  unfold ParsersAgree Accepts
  rcases parsers_sim pAd a vieOld vieNew h with ⟨b, o, n, s, hold, hnew, hscan, hsim, hrates⟩ |
    ⟨hold, hnew, hscan⟩ | ⟨hold, hnew, hscan⟩
  · rw [hold, hnew]
    refine ⟨by simp, fun o' n' ho hn => ?_⟩
    obtain ⟨rfl, rfl⟩ : b = true ∧ o = o' := by simpa using ho
    obtain rfl : n = n' := by simpa using hn
    obtain ⟨hlen, hrate⟩ := hsim.rates (hrates rfl)
    refine ⟨hsim.toAlike, ⟨hlen, hrate⟩, fun j hj => ?_⟩
    rw [hsim.extOld j hj, hsim.extNew j hj, hexts s.exts hscan j hj]
  · simp [hold, hnew]
  · simp [hold, hnew]

end

/-! ### Two beacons -/

def station : Adapter where
  flags := ⟨false, true, false⟩
  opModeSta := true
  infraOn := false
  commonBssid := zeroMemory
  aid := 0
  latchRfChannel := 6
  channelList := [1, 6, 11]

def beaconWith (elems : List Byte) : Arrival where
  msg := mem (0x80 :: List.replicate 35 0 ++ [0, 1, 0x41, 1, 1, 0x82, 3, 1, 6] ++ elems)
  msgLen := 45 + elems.length
  msgChannel := 6
  peerWscIe := true

/-- The output parameters of the differ, zeros also where it leaves them as they are. -/
def cleared : OldOut where
  addr2 := zeroMemory
  bssid := zeroMemory
  ssid := zeroMemory
  ssidLen := 0
  bssType := 0
  beaconPeriod := 0
  channel := 0
  newChannel := 0
  timestamp := zeroMemory
  cfParm := .zero
  atimWin := 0
  capabilityInfo := 0
  erp := 0
  dtimCount := 0
  dtimPeriod := 0
  bcastFlag := false
  messageToMe := false
  supRate := zeroMemory
  supRateLen := 0
  extRate := zeroMemory
  extRateLen := 0
  ckipFlag := 0
  aironetCellPowerLimit := 0
  edcaParm := .zero
  qbssLoad := .zero
  qosCapability := .zero
  ralinkIe := 0
  htCapabilityLen := 0
  preNHtCapabilityLen := 0
  htCapability := zeroMemory
  extCapInfo := zeroMemory
  addHtInfoLen := 0
  addHtInfo := zeroMemory
  newExtChannelOffset := 0

theorem prepared_cleared : Prepared cleared := ⟨rfl, rfl, rfl, rfl, rfl, rfl, rfl, rfl, rfl, rfl⟩

/-- Extended capabilities of four octets, and ERP information behind them. -/
theorem peerBeaconAndProbeRspSanity_agrees_iff_whole :
    ParsersAgree station (beaconWith [127, 4, 1, 0, 0, 64, 42, 1, 2]) cleared zeroMemory zeroMemory := by
  refine (peerBeaconAndProbeRspSanity_agrees_iff _ _ _ _ prepared_cleared).2 fun exts hexts => ?_
  have hscan : scanBeacon station (beaconWith [127, 4, 1, 0, 0, 64, 42, 1, 2]) = some (true, [45]) := by decide
  rw [hscan] at hexts
  obtain rfl : [45] = exts := by simpa using hexts
  decide

/-- Extended capabilities of one octet: the new parser takes the ERP element behind them for the rest. -/
theorem not_parsersAgree_short :
    ¬ ParsersAgree station (beaconWith [127, 1, 1, 42, 1, 2]) cleared zeroMemory zeroMemory := by
  intro hagree
  have hscan : scanBeacon station (beaconWith [127, 1, 1, 42, 1, 2]) = some (true, [45]) := by decide
  have hsecond := hagree.behindLast_eq _ _ prepared_cleared hscan 1 (by omega)
  revert hsecond
  decide

end Mt7610u.Mgmt.Beacon
