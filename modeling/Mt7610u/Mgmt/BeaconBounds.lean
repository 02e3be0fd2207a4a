import Mt7610u.Mgmt.BeaconWalk

/-! # Where the beacon parser reads and writes -/

namespace Mt7610u.Mgmt.Beacon

open Mt7610u.Lib Mt7610u.Mlme

/-! ### What the code touches -/

inductive Access
  | msg (i : ℕ)
  | vie (i : ℕ)
  | wsc (i : ℕ)
deriving DecidableEq

/-- `n` octets of the element at `p` from octet `k` on. -/
def octets (p k n : ℕ) : List Access := (List.range n).map fun i => .msg (p + 2 + k + i)

/-- The element at `p` is copied to the end of the variable-IE buffer. -/
def copyVIEAccesses (a : Arrival) (p : ℕ) (s : NewState) : List Access :=
  ((List.range (a.len p + 2)).map fun i => .msg (p + i)) ++
    (List.range (a.len p + 2)).map fun i => .vie (s.loc.lengthVIE + i)

/-- `GetTimBit`: three octets, and the one of the bitmap that has the station's bit. -/
def getTimBitAccesses (a : Arrival) (p : ℕ) (aid : BitVec 16) : List Access :=
  let n1 := a.msg (p + 4) &&& 0xfe#8
  let n2 := a.msg (p + 1) - 4 + n1
  octets p 0 3 ++
    if aid.toNat < n1.toNat * 8 ∨ (n2.toNat + 1) * 8 ≤ aid.toNat then []
    else octets p (3 + ((aid >>> 3).setWidth 8 - n1).toNat) 1

def vendorAccesses (pAd : Adapter) (a : Arrival) (p : ℕ) (s : NewState) : List Access :=
  let len := a.len p
  let octet := a.octet p
  octets p 0 3 ++
    if a.hasOui p ralinkOui ∧ len = 7 then octets p 3 1
    else
      (if s.ieList.htCapabilityLen = 0 then octets p 0 3 else []) ++
        if s.ieList.htCapabilityLen = 0 ∧ a.hasOui p preNHtOui ∧ 4 ≤ len ∧ pAd.opModeSta then
          octets p 3 1 ++ (if octet 3 = 51 ∧ 30 ≤ len then octets p 4 26 else []) ++
            (if octet 3 = 52 ∧ 26 ≤ len then octets p 4 22 else [])
        else
          octets p 0 4 ++
            if a.hasOui p wpaOui then copyVIEAccesses a p s
            else
              octets p 0 6 ++
                if a.hasOui p wmeParmElem ∧ len = 24 then octets p 6 1 ++ octets p 8 16
                else
                  octets p 0 6 ++
                    if a.hasOui p wmeInfoElem ∧ len = 7 then octets p 6 1
                    else
                      octets p 0 4 ++
                        if a.hasOui p wpsOui ∧ s.loc.pPeerWscIe.isSome ∧ s.loc.peerWscIeLen < 512 then
                          octets p 4 (len - 4) ++ (List.range (len - 4)).map fun i => .wsc (s.loc.peerWscIeLen + i)
                        else []

/-- What the arm for the element at `p` touches. -/
def armAccesses (pAd : Adapter) (a : Arrival) (p : ℕ) (s : NewState) : List Access :=
  let len := a.len p
  match Eid.ofByte (a.eid p) with
  | .ssid => if s.loc.sanity &&& 1#8 ≠ 0#8 then [] else if len ≤ 32 then octets p 0 len else []
  | .suppRates => if len ≤ 12 then octets p 0 len else []
  | .htCap =>
    if 26 ≤ len then octets p 0 26 ++ if pAd.ifOpModeOnSta then copyVIEAccesses a p s else [] else []
  | .addHt =>
    if 22 ≤ len then octets p 0 22 ++ if pAd.ifOpModeOnSta then copyVIEAccesses a p s else [] else []
  | .secondaryChOffset => if len = 1 then octets p 0 1 else []
  | .fhParm => []
  | .dsParm => if len = 1 then octets p 0 1 else []
  | .cfParm => if len = 6 then octets p 0 6 else []
  | .ibssParm => if len = 2 then octets p 0 2 else []
  | .tim =>
    if a.subType = 8 ∧ pAd.infraOn ∧ equalMemory s.ieList.bssid pAd.commonBssid 6 then
      getTimBitAccesses a p pAd.aid
    else []
  | .channelSwitch => if len = 3 then octets p 1 1 else []
  | .vendorSpecific => vendorAccesses pAd a p s
  | .extSuppRates => if len ≤ 12 then octets p 0 len else []
  | .erp => if len = 1 then octets p 0 1 else []
  | .aironetCkip => if len < 28 then [] else octets p 8 1
  | .apTxPower =>
    if len ≠ 6 then [] else octets p 0 3 ++ if a.hasOui p ciscoOui then octets p 4 1 else []
  | .rsn =>
    octets p 2 3 ++
      if equalMemory (fun i => a.octet p (2 + i)) (mem rsnOui) 3 then copyVIEAccesses a p s else []
  | .country => if pAd.flags.countryIe then copyVIEAccesses a p s else []
  | .qbssLoad => if len = 5 then octets p 0 5 ++ copyVIEAccesses a p s else []
  | .extCapability =>
    if 1 ≤ len then octets p 0 4 else if pAd.flags.vht ∧ len = 12 then octets p 0 12 else []
  | .vhtCap => if pAd.flags.vht ∧ len = 12 then octets p 0 12 else []
  | .vhtOp => if pAd.flags.vht ∧ len = 5 then octets p 0 5 else []
  | .other => []

def headerAccesses : List Access :=
  .msg 0 :: (List.range 18).map (fun i => .msg (4 + i)) ++ (List.range 12).map fun i => .msg (24 + i)

/-- A turn of the loop: its test reads the length octet, the `switch` the number, and then comes the arm. -/
def turnAccesses (pAd : Adapter) (a : Arrival) (v : ℕ × NewState) : List Access :=
  .msg (v.1 + 1) :: .msg v.1 :: armAccesses pAd a v.1 v.2

def appendWscAccesses (s : NewState) : List Access :=
  if s.loc.pPeerWscIe.isSome ∧ 0 < s.loc.peerWscIeLen ∧ s.loc.peerWscIeLen < 512 then
    (List.range (s.loc.peerWscIeLen + 6)).map fun i => .vie (s.loc.lengthVIE + i)
  else []

section

variable (pAd : Adapter) (a : Arrival) (ieList : BcnIeList) (vie : ℕ → Byte)

def frameVisits : List (ℕ × NewState) × Option ℕ :=
  visits pAd a a.msgLen firstElement ⟨ieList.start a, vie, Locals.start a⟩

/-- All that `PeerBeaconAndProbeRspSanity` touches of the message and the two buffers. -/
def accesses : List Access :=
  headerAccesses ++ (frameVisits pAd a ieList vie).1.flatMap (turnAccesses pAd a) ++
    (match (frameVisits pAd a ieList vie).2 with
      | none => []
      | some p => [.msg (p + 1)]) ++
    match elements a (fun s => s.loc.lengthVIE) (newArm pAd a) a.msgLen firstElement
        ⟨ieList.start a, vie, Locals.start a⟩ with
    | .next s => appendWscAccesses s
    | _ => []

/-- **What is asked of the parser**: it comes to an end, however many turns it may take; no copy has a negative
length; it reads inside the message, and an arm inside its element; and it writes inside the buffers. -/
structure StaysInside : Prop where
  ends : ∀ more s, elements a (fun s => s.loc.lengthVIE) (newArm pAd a) (a.msgLen + more) firstElement s =
    elements a (fun s => s.loc.lengthVIE) (newArm pAd a) a.msgLen firstElement s
  returns : peerBeaconAndProbeRspSanity pAd a ieList vie ≠ none
  message : ∀ i, .msg i ∈ accesses pAd a ieList vie → i < a.msgLen
  element : ∀ v ∈ (frameVisits pAd a ieList vie).1, ∀ i, .msg i ∈ armAccesses pAd a v.1 v.2 →
    v.1 ≤ i ∧ i < v.1 + 2 + a.len v.1
  lengthVIE : ∀ b n, peerBeaconAndProbeRspSanity pAd a ieList vie = some (b, some n) → n.loc.lengthVIE ≤ 1024
  vieBuffer : ∀ i, .vie i ∈ accesses pAd a ieList vie → i < 1024
  wscBuffer : ∀ i, .wsc i ∈ accesses pAd a ieList vie → i < 512

end

/-! ### When it does -/

/-- An element that is looked at is long enough for its arm, and gathered octets find room. -/
def Look.Fits (pAd : Adapter) (a : Arrival) (l : Look) : Prop :=
  let p := l.pos
  let len := a.len p
  match Eid.ofByte (a.eid p) with
  | .rsn => 5 ≤ len
  | .extCapability => len = 0 ∨ 4 ≤ len
  | .tim =>
    a.subType = 8 ∧ pAd.infraOn ∧ equalMemory (fun i => a.msg (16 + i)) pAd.commonBssid 6 →
      4 ≤ len ∨ len = 3 ∧ (a.msg (p + 4) &&& 0xfe#8 ≠ 0#8 ∨ 2048 ≤ pAd.aid.toNat)
  | .vendorSpecific =>
    if a.hasOui p ralinkOui ∧ len = 7 ∨ l.htCap = false ∧ a.hasOui p preNHtOui ∧ 4 ≤ len ∧ pAd.opModeSta then True
    else if a.hasOui p wpaOui then 4 ≤ len
    else 6 ≤ len ∧ (a.hasOui p wpsOui ∧ a.peerWscIe ∧ l.wscLen < 512 → l.wscLen + (len - 4) ≤ 512)
  | _ => True

instance (pAd : Adapter) (a : Arrival) (l : Look) : Decidable (l.Fits pAd a) := by
  unfold Look.Fits
  dsimp only
  cases Eid.ofByte (a.eid l.pos) <;> dsimp only <;> infer_instance

structure Fits (pAd : Adapter) (a : Arrival) (htCap : Bool) : Prop where
  header : 36 ≤ a.msgLen
  looked : ∀ l ∈ (walkFrame pAd a htCap).looked, l.Fits pAd a
  last : (walkFrame pAd a htCap).jumped = false → (walkFrame pAd a htCap).pos + 2 ≤ a.msgLen
  room : (walkFrame pAd a htCap).jumped = false → a.peerWscIe = true →
    0 < (walkFrame pAd a htCap).wscLen a → (walkFrame pAd a htCap).wscLen a < 512 →
    (walkFrame pAd a htCap).lengthVIE a + ((walkFrame pAd a htCap).wscLen a + 6) ≤ 1024

/-! ### One element -/

/-- Inside the element at `p`, or inside the buffer. -/
def Inside (a : Arrival) (p : ℕ) : Access → Prop
  | .msg i => p ≤ i ∧ i < p + 2 + a.len p
  | .vie i => i < 1024
  | .wsc i => i < 512

def AllInside (a : Arrival) (p : ℕ) (l : List Access) : Prop := ∀ x ∈ l, Inside a p x

section

variable {a : Arrival} {p : ℕ}

@[simp] theorem allInside_nil : AllInside a p [] := List.forall_mem_nil _

@[simp] theorem allInside_append {l l' : List Access} :
    AllInside a p (l ++ l') ↔ AllInside a p l ∧ AllInside a p l' := List.forall_mem_append

@[simp] theorem allInside_octets {k n : ℕ} : AllInside a p (octets p k n) ↔ n = 0 ∨ k + n ≤ a.len p := by
  unfold AllInside octets
  rw [List.forall_mem_map]
  constructor
  · intro h
    by_cases hn : n = 0
    · exact Or.inl hn
    · have hlast := (h (n - 1) (List.mem_range.2 (by omega))).2
      omega
  · intro h i hi
    have hlt := List.mem_range.1 hi
    show p ≤ p + 2 + k + i ∧ p + 2 + k + i < p + 2 + a.len p
    omega

theorem allInside_wsc {off n : ℕ} :
    AllInside a p ((List.range n).map fun i => .wsc (off + i)) ↔ n = 0 ∨ off + n ≤ 512 := by
  unfold AllInside
  rw [List.forall_mem_map]
  constructor
  · intro h
    by_cases hn : n = 0
    · exact Or.inl hn
    · have hlast : off + (n - 1) < 512 := h (n - 1) (List.mem_range.2 (by omega))
      omega
  · intro h i hi
    have hlt := List.mem_range.1 hi
    show off + i < 512
    omega

theorem allInside_copyVIE {s : NewState} (hroom : s.loc.lengthVIE + a.len p + 2 < 1024) :
    AllInside a p (copyVIEAccesses a p s) := by
  unfold copyVIEAccesses
  rw [allInside_append]
  unfold AllInside
  rw [List.forall_mem_map, List.forall_mem_map]
  constructor
  · intro i hi
    have hlt := List.mem_range.1 hi
    show p ≤ p + i ∧ p + i < p + 2 + a.len p
    omega
  · intro i hi
    have hlt := List.mem_range.1 hi
    show s.loc.lengthVIE + i < 1024
    omega

theorem allInside_getTimBit (aid : BitVec 16) :
    AllInside a p (getTimBitAccesses a p aid) ↔
      4 ≤ a.len p ∨ a.len p = 3 ∧ (a.msg (p + 4) &&& 0xfe#8 ≠ 0#8 ∨ 2048 ≤ aid.toNat) := by
  unfold getTimBitAccesses
  dsimp only
  rw [allInside_append, allInside_octets]
  generalize a.msg (p + 4) &&& 0xfe#8 = n1
  have hlen : a.len p = (a.msg (p + 1)).toNat := rfl
  have hn1 : n1 ≠ 0#8 ↔ n1.toNat ≠ 0 := by
    rw [ne_eq, ne_eq, ← BitVec.toNat_inj]
    rfl
  have hn2 : (a.msg (p + 1) - 4 + n1).toNat = ((a.msg (p + 1)).toNat + 252 + n1.toNat) % 256 := by
    rw [BitVec.toNat_add, BitVec.toNat_sub]
    show ((256 - 4 + (a.msg (p + 1)).toNat) % 256 + n1.toNat) % 256 = _
    omega
  have hmine : ((aid >>> 3).setWidth 8 - n1).toNat = (aid.toNat / 8 + 256 - n1.toNat) % 256 := by
    rw [BitVec.toNat_sub, BitVec.toNat_setWidth, BitVec.toNat_ushiftRight, Nat.shiftRight_eq_div_pow]
    have := n1.isLt
    omega
  have hlt := (a.msg (p + 1)).isLt
  have hltn1 := n1.isLt
  have hltaid := aid.isLt
  rw [hn1, hn2, hmine, hlen]
  split_ifs with hrange
  · rw [and_iff_left allInside_nil, false_or]
    omega
  · rw [allInside_octets, hlen]
    -- the station's octet is one of those between the first and the last of the bitmap
    obtain ⟨hfirst, hlast⟩ := not_or.1 hrange
    have hge : n1.toNat ≤ aid.toNat / 8 := by omega
    have hle : aid.toNat / 8 ≤ ((a.msg (p + 1)).toNat + 252 + n1.toNat) % 256 := by omega
    have hoff : (aid.toNat / 8 + 256 - n1.toNat) % 256 = aid.toNat / 8 - n1.toNat := by omega
    rw [hoff]
    rcases Nat.lt_or_ge ((a.msg (p + 1)).toNat + n1.toNat) 4 with hwrap | hwrap
    · omega
    · have hn2' : ((a.msg (p + 1)).toNat + 252 + n1.toNat) % 256 = ((a.msg (p + 1)).toNat + n1.toNat - 4) % 256 := by
        omega
      omega

theorem allInside_vendor (pAd : Adapter) {n : NewState} {w : Walk} (h : Tracks a n w)
    (hroom : n.loc.lengthVIE + a.len p + 2 < 1024) (hv : Eid.ofByte (a.eid p) = .vendorSpecific) :
    (newArm pAd a p n ≠ .fault ∧ AllInside a p (vendorAccesses pAd a p n)) ↔
      Look.Fits pAd a ⟨p, w.htCap, w.wscLen a⟩ := by
  have hht : n.ieList.htCapabilityLen = 0 ↔ w.htCap = false := by
    rw [h.htCap]
    simp
  unfold vendorAccesses Look.Fits newArm
  dsimp only
  rw [hv]
  dsimp only
  by_cases hral : a.hasOui p ralinkOui ∧ a.len p = 7
  · have hlen := hral.2
    rw [if_pos hral, if_pos hral, if_pos (Or.inl hral), allInside_append, allInside_octets, allInside_octets]
    exact ⟨fun _ => trivial, fun _ => ⟨nofun, by omega, by omega⟩⟩
  rw [if_neg hral, if_neg hral]
  by_cases hpre : n.ieList.htCapabilityLen = 0 ∧ a.hasOui p preNHtOui ∧ 4 ≤ a.len p ∧ pAd.opModeSta
  · have hlen := hpre.2.2.1
    rw [if_pos hpre, if_pos hpre, if_pos hpre.1, if_pos (Or.inr ⟨hht.1 hpre.1, hpre.2⟩)]
    refine ⟨fun _ => trivial, fun _ => ⟨?_, ?_⟩⟩
    · split <;> nofun
    · simp only [allInside_append, allInside_octets]
      refine ⟨by omega, by omega, ⟨by omega, ?_⟩, ?_⟩
      · split
        · rename_i h51
          exact allInside_octets.2 (Or.inr (by omega))
        · exact allInside_nil
      · split
        · rename_i h52
          exact allInside_octets.2 (Or.inr (by omega))
        · exact allInside_nil
  have hfits : ¬ (a.hasOui p ralinkOui ∧ a.len p = 7 ∨
      w.htCap = false ∧ a.hasOui p preNHtOui ∧ 4 ≤ a.len p ∧ pAd.opModeSta) := by
    rintro (hc | ⟨hc, hrest⟩)
    · exact hral hc
    · exact hpre ⟨hht.2 hc, hrest⟩
  have hthree (l : List Access) : AllInside a p (octets p 0 3 ++ ((if n.ieList.htCapabilityLen = 0 then octets p 0 3
      else []) ++ (octets p 0 4 ++ l))) ↔ 4 ≤ a.len p ∧ AllInside a p l := by
    have hif : AllInside a p (if n.ieList.htCapabilityLen = 0 then octets p 0 3 else []) ↔
        (n.ieList.htCapabilityLen = 0 → 3 ≤ a.len p) := by
      split
      · rw [allInside_octets]
        constructor <;> intro hc <;> omega
      · exact ⟨fun _ hc => absurd hc ‹_›, fun _ => allInside_nil⟩
    simp only [allInside_append, allInside_octets, hif]
    constructor
    · rintro ⟨-, -, h4, hl⟩
      exact ⟨by omega, hl⟩
    · rintro ⟨h4, hl⟩
      exact ⟨by omega, fun _ => by omega, by omega, hl⟩
  rw [if_neg hpre, if_neg hpre, if_neg hfits, hthree]
  by_cases hwpa : a.hasOui p wpaOui
  · rw [if_pos hwpa, if_pos hwpa, if_pos hwpa]
    exact ⟨fun hc => hc.2.1, fun h4 => ⟨nofun, h4, allInside_copyVIE hroom⟩⟩
  rw [if_neg hwpa, if_neg hwpa, if_neg hwpa, allInside_append, allInside_octets]
  by_cases h6 : 6 ≤ a.len p
  swap
  · exact ⟨fun hc => absurd hc.2.2.1 (by omega), fun hc => absurd hc.1 h6⟩
  have hwsc : n.loc.pPeerWscIe.isSome = a.peerWscIe := h.peerWscIe
  have hwscLen : n.loc.peerWscIeLen = w.wscLen a := h.wscLen
  have hskip (hwps : ¬ a.hasOui p wpsOui) : a.hasOui p wpsOui ∧ a.peerWscIe ∧ w.wscLen a < 512 →
      w.wscLen a + (a.len p - 4) ≤ 512 := fun hc => absurd hc.1 hwps
  by_cases hparm : a.hasOui p wmeParmElem ∧ a.len p = 24
  · obtain ⟨-, hwps⟩ := Sim.not_wpa_wps (Or.inr (Or.inr (Or.inl hparm.1)))
    have hlen := hparm.2
    rw [if_pos hparm, if_pos hparm, allInside_append, allInside_octets, allInside_octets]
    exact ⟨fun _ => ⟨h6, hskip hwps⟩, fun _ => ⟨nofun, by omega, by omega, by omega, by omega⟩⟩
  rw [if_neg hparm, if_neg hparm, allInside_append, allInside_octets]
  by_cases hinfo : a.hasOui p wmeInfoElem ∧ a.len p = 7
  · obtain ⟨-, hwps⟩ := Sim.not_wpa_wps (Or.inr (Or.inr (Or.inr hinfo.1)))
    have hlen := hinfo.2
    rw [if_pos hinfo, if_pos hinfo, allInside_octets]
    exact ⟨fun _ => ⟨h6, hskip hwps⟩, fun _ => ⟨nofun, by omega, by omega, by omega, by omega⟩⟩
  rw [if_neg hinfo, if_neg hinfo, allInside_append, allInside_octets]
  by_cases hwps : a.hasOui p wpsOui ∧ a.peerWscIe ∧ w.wscLen a < 512
  · have hgather : a.hasOui p wpsOui ∧ n.loc.pPeerWscIe.isSome ∧ n.loc.peerWscIeLen < 512 := by
      rw [hwsc, hwscLen]
      exact hwps
    obtain ⟨wsc, hsome⟩ := Option.isSome_iff_exists.1 hgather.2.1
    rw [if_pos hgather, if_pos hgather.1, hsome, allInside_append, allInside_octets, allInside_wsc]
    dsimp only
    rw [if_pos hgather.2.2, if_neg (by omega), hwscLen]
    constructor
    · rintro ⟨-, -, -, -, -, -, hc⟩
      exact ⟨h6, fun _ => by omega⟩
    · rintro ⟨-, hc⟩
      have hfit := hc hwps
      exact ⟨nofun, by omega, by omega, by omega, by omega, by omega, by omega⟩
  · have hgather : ¬ (a.hasOui p wpsOui ∧ n.loc.pPeerWscIe.isSome ∧ n.loc.peerWscIeLen < 512) := by
      rw [hwsc, hwscLen]
      exact hwps
    rw [if_neg hgather]
    refine ⟨fun _ => ⟨h6, fun hc => absurd hc hwps⟩, fun _ => ⟨?_, by omega, by omega, by omega, by omega,
      allInside_nil⟩⟩
    have h4 : ¬ a.len p < 4 := by omega
    simp only [if_neg h4]
    cases n.loc.pPeerWscIe <;> dsimp only <;> split_ifs <;> nofun

theorem newArm_ne_fault (pAd : Adapter) (n : NewState) (hv : Eid.ofByte (a.eid p) ≠ .vendorSpecific) :
    newArm pAd a p n ≠ .fault := by
  unfold newArm vhtCapArm
  dsimp only
  cases heid : Eid.ofByte (a.eid p) with
  | vendorSpecific => exact absurd heid hv
  | fhParm => exact nofun
  | other => exact nofun
  | _ =>
    dsimp only
    split_ifs <;> nofun

theorem allInside_ite {c : Prop} [Decidable c] {l l' : List Access} :
    AllInside a p (if c then l else l') ↔ (c → AllInside a p l) ∧ (¬ c → AllInside a p l') := by
  split_ifs with hc <;> simp [hc]

theorem allInside_arm (pAd : Adapter) {n : NewState} {w : Walk} (h : Tracks a n w)
    (hroom : n.loc.lengthVIE + a.len p + 2 < 1024) :
    (newArm pAd a p n ≠ .fault ∧ AllInside a p (armAccesses pAd a p n)) ↔
      Look.Fits pAd a ⟨p, w.htCap, w.wscLen a⟩ := by
  by_cases hv : Eid.ofByte (a.eid p) = .vendorSpecific
  · rw [← allInside_vendor pAd h hroom hv]
    unfold armAccesses
    rw [hv]
  rw [and_iff_right (newArm_ne_fault pAd n hv)]
  have hkeep : AllInside a p (copyVIEAccesses a p n) := allInside_copyVIE hroom
  unfold armAccesses Look.Fits
  dsimp only
  cases heid : Eid.ofByte (a.eid p) with
  | vendorSpecific => exact absurd heid hv
  | rsn =>
    dsimp only
    rw [allInside_append, allInside_octets, allInside_ite, and_iff_left ⟨fun _ => hkeep, fun _ => allInside_nil⟩]
    omega
  | extCapability =>
    dsimp only
    by_cases hlen : 1 ≤ a.len p
    · rw [if_pos hlen, allInside_octets]
      omega
    · rw [if_neg hlen, if_neg fun hc => hlen (by omega)]
      exact ⟨fun _ => Or.inl (by omega), fun _ => allInside_nil⟩
  | tim =>
    have hbssid : equalMemory n.ieList.bssid pAd.commonBssid 6 =
        equalMemory (fun i => a.msg (16 + i)) pAd.commonBssid 6 := by
      unfold equalMemory
      rw [read_congr.2 h.bssid]
    dsimp only
    rw [allInside_ite, hbssid, allInside_getTimBit, and_iff_left fun _ => allInside_nil]
  | _ =>
    refine ⟨fun _ => trivial, fun _ => ?_⟩
    dsimp only
    (try split_ifs) <;> first
      | exact allInside_nil
      | exact hkeep
      | exact allInside_octets.2 (by omega)
      | exact allInside_append.2 ⟨allInside_octets.2 (by omega), hkeep⟩
      | exact allInside_append.2 ⟨allInside_octets.2 (by omega), allInside_nil⟩
      | exact allInside_append.2 ⟨allInside_octets.2 (by omega), allInside_octets.2 (by omega)⟩

end

/-! ### A whole frame -/

section

variable (pAd : Adapter) (a : Arrival)

theorem elements_fault_iff (turns : ℕ) : ∀ {n : NewState} {w : Walk}, Tracks a n w → w.jumped = false →
    (elements a (fun s => s.loc.lengthVIE) (newArm pAd a) turns w.pos n = .fault ↔
      ∃ v ∈ (visits pAd a turns w.pos n).1, newArm pAd a v.1 v.2 = .fault) := by
  induction turns with
  | zero =>
    intro n w h hj
    exact ⟨nofun, fun ⟨v, hv, _⟩ => absurd hv List.not_mem_nil⟩
  | succ turns ih =>
    intro n w h hj
    rcases step_cases pAd a turns h hj with ⟨-, hv, he⟩ |
      ⟨-, ⟨n', w', hn, -, h', hj', -, hv, he⟩ | ⟨w', -, -, -, -, hv, he⟩⟩
    · rw [hv, he]
      exact ⟨nofun, fun ⟨v, hv, _⟩ => absurd hv List.not_mem_nil⟩
    · rw [hv, he, ih h' hj', List.exists_mem_cons_iff, or_iff_right]
      rw [hn]
      nofun
    · rw [hv, he]
      simp

theorem visits_test (turns : ℕ) {n : NewState} {w : Walk} (h : Tracks a n w) (hj : w.jumped = false) :
    ∀ v ∈ (visits pAd a turns w.pos n).1, v.1 + 2 + a.len v.1 ≤ a.msgLen :=
  ((@forall_visits_iff pAd a (fun v => v.1 + 2 + a.len v.1 ≤ a.msgLen) (fun _ => True)
    (fun _ _ _ htest _ => iff_true_intro htest) turns _ _ h hj).1 fun _ _ => trivial).2

variable (ieList : BcnIeList) (vie : ℕ → Byte)

theorem leads_frame :
    Leads a (walkFrame pAd a (ieList.htCapabilityLen ≠ 0))
      (elements a (fun s => s.loc.lengthVIE) (newArm pAd a) a.msgLen firstElement
        ⟨ieList.start a, vie, Locals.start a⟩) :=
  tracks_loop pAd a a.msgLen (tracks_start a ieList vie) rfl

theorem forall_arms_iff :
    (∀ l ∈ (walkFrame pAd a (ieList.htCapabilityLen ≠ 0)).looked, l.Fits pAd a) ↔
      ∀ v ∈ (frameVisits pAd a ieList vie).1,
        newArm pAd a v.1 v.2 ≠ .fault ∧ AllInside a v.1 (armAccesses pAd a v.1 v.2) := by
  have h := @forall_visits_iff pAd a
    (fun v => newArm pAd a v.1 v.2 ≠ .fault ∧ AllInside a v.1 (armAccesses pAd a v.1 v.2))
    (fun l => l.Fits pAd a)
    (fun n w hn _ hroom => allInside_arm pAd hn (by rw [hn.lengthVIE]; exact hroom)) a.msgLen _ _
    (tracks_start a ieList vie) rfl
  rw [and_iff_right (List.forall_mem_nil _)] at h
  exact h

theorem returns_iff :
    peerBeaconAndProbeRspSanity pAd a ieList vie ≠ none ↔
      ∀ v ∈ (frameVisits pAd a ieList vie).1, newArm pAd a v.1 v.2 ≠ .fault := by
  have h := elements_fault_iff pAd a a.msgLen (tracks_start a ieList vie) rfl
  have hnone : peerBeaconAndProbeRspSanity pAd a ieList vie = none ↔
      elements a (fun s => s.loc.lengthVIE) (newArm pAd a) a.msgLen firstElement
        ⟨ieList.start a, vie, Locals.start a⟩ = .fault := by
    unfold peerBeaconAndProbeRspSanity
    cases elements a (fun s => s.loc.lengthVIE) (newArm pAd a) a.msgLen firstElement
      ⟨ieList.start a, vie, Locals.start a⟩ <;> simp
  rw [ne_eq, hnone]
  refine (not_congr h).trans ?_
  rw [frameVisits]
  push Not
  exact Iff.rfl

theorem walkArm_lengthVIE_le (p : ℕ) (w : Walk) :
    (walkArm pAd a p w).lengthVIE a ≤ w.lengthVIE a + (a.len p + 2) := by
  have hsame (w' : Walk) (h : w'.kept = w.kept) : w'.lengthVIE a ≤ w.lengthVIE a + (a.len p + 2) := by
    unfold Walk.lengthVIE
    rw [h]
    omega
  have hkeep (w' : Walk) (h : w'.kept = p :: w.kept) : w'.lengthVIE a ≤ w.lengthVIE a + (a.len p + 2) := by
    unfold Walk.lengthVIE
    rw [h, List.map_cons, List.sum_cons]
    omega
  unfold walkArm
  cases Eid.ofByte (a.eid p) <;> dsimp only <;> (try split_ifs) <;> first
    | exact hsame _ rfl
    | exact hkeep _ rfl

theorem walk_lengthVIE_lt (turns : ℕ) : ∀ {w : Walk}, w.lengthVIE a < 1024 → (walk pAd a turns w).lengthVIE a < 1024 := by
  induction turns with
  | zero =>
    intro w h
    exact h
  | succ turns ih =>
    intro w h
    rw [walk_succ]
    split_ifs with htest hroom hjump
    · exact h
    · have hle := walkArm_lengthVIE_le pAd a w.pos (w.look a)
      have hlook : (w.look a).lengthVIE a = w.lengthVIE a := rfl
      omega
    · have hle := walkArm_lengthVIE_le pAd a w.pos (w.look a)
      have hlook : (w.look a).lengthVIE a = w.lengthVIE a := rfl
      exact ih (by omega)
    · exact h

theorem mem_accesses {x : Access} :
    x ∈ accesses pAd a ieList vie ↔
      x ∈ headerAccesses ∨ (∃ v ∈ (frameVisits pAd a ieList vie).1, x ∈ turnAccesses pAd a v) ∨
      ((walkFrame pAd a (ieList.htCapabilityLen ≠ 0)).jumped = false ∧
        x = .msg ((walkFrame pAd a (ieList.htCapabilityLen ≠ 0)).pos + 1)) ∨
      ∃ n, elements a (fun s => s.loc.lengthVIE) (newArm pAd a) a.msgLen firstElement
        ⟨ieList.start a, vie, Locals.start a⟩ = .next n ∧ x ∈ appendWscAccesses n := by
  have hlast := visits_last pAd a a.msgLen (tracks_start a ieList vie) rfl
  unfold accesses
  rw [List.mem_append, List.mem_append, List.mem_append, List.mem_flatMap, or_assoc, or_assoc]
  refine or_congr_right (or_congr_right (or_congr ?_ ?_))
  · have hv : (frameVisits pAd a ieList vie).2 =
        if (walkFrame pAd a (ieList.htCapabilityLen ≠ 0)).jumped then none
        else some (walkFrame pAd a (ieList.htCapabilityLen ≠ 0)).pos := hlast
    rw [hv]
    cases (walkFrame pAd a (ieList.htCapabilityLen ≠ 0)).jumped <;> simp
  · cases elements a (fun s => s.loc.lengthVIE) (newArm pAd a) a.msgLen firstElement
      ⟨ieList.start a, vie, Locals.start a⟩ <;> simp

theorem appendWscAccesses_lt_iff {n : NewState} {w : Walk} (h : Tracks a n w) :
    (∀ i, .vie i ∈ appendWscAccesses n → i < 1024) ↔
      (a.peerWscIe = true → 0 < w.wscLen a → w.wscLen a < 512 → w.lengthVIE a + (w.wscLen a + 6) ≤ 1024) := by
  unfold appendWscAccesses
  rw [h.peerWscIe, h.wscLen, h.lengthVIE]
  by_cases hc : a.peerWscIe ∧ 0 < w.wscLen a ∧ w.wscLen a < 512
  · rw [if_pos hc]
    constructor
    · intro hlt _ _ _
      have hlast := hlt (w.lengthVIE a + (w.wscLen a + 5))
        (List.mem_map.2 ⟨w.wscLen a + 5, List.mem_range.2 (by omega), rfl⟩)
      omega
    · intro hle i hi
      obtain ⟨j, hj, heq⟩ := List.mem_map.1 hi
      have hjlt := List.mem_range.1 hj
      have hroom := hle hc.1 hc.2.1 hc.2.2
      injection heq with heq
      omega
  · rw [if_neg hc]
    refine ⟨fun _ h1 h2 h3 => absurd ⟨h1, h2, h3⟩ hc, fun _ i hi => absurd hi List.not_mem_nil⟩

theorem lengthVIE_newTail (n : NewState) :
    (newTail pAd a n).loc.lengthVIE = n.loc.lengthVIE +
      if n.loc.pPeerWscIe.isSome ∧ 0 < n.loc.peerWscIeLen ∧ n.loc.peerWscIeLen < 512 then n.loc.peerWscIeLen + 6
      else 0 := by
  have hlatch : (n.latchChannel pAd a).loc.lengthVIE = n.loc.lengthVIE ∧
      (n.latchChannel pAd a).loc.pPeerWscIe = n.loc.pPeerWscIe ∧
      (n.latchChannel pAd a).loc.peerWscIeLen = n.loc.peerWscIeLen := by
    unfold NewState.latchChannel
    split <;> exact ⟨rfl, rfl, rfl⟩
  obtain ⟨hvie, hsome, hlen⟩ := hlatch
  unfold newTail NewState.appendWsc
  rw [hsome, hlen]
  cases n.loc.pPeerWscIe with
  | none => simp [hvie]
  | some wsc =>
    dsimp only
    by_cases hc : 0 < n.loc.peerWscIeLen ∧ n.loc.peerWscIeLen < 512
    · rw [if_pos hc, if_pos ⟨rfl, hc⟩]
      simp [hvie]
    · rw [if_neg hc, if_neg fun h => hc h.2]
      simp [hvie]

theorem StaysInside.fits (h : StaysInside pAd a ieList vie) : Fits pAd a (ieList.htCapabilityLen ≠ 0) where
  header := by
    have hlast := h.message 35 ((mem_accesses pAd a ieList vie).2 (Or.inl (by decide)))
    omega
  looked := by
    rw [forall_arms_iff pAd a ieList vie]
    intro v hv
    refine ⟨(returns_iff pAd a ieList vie).1 h.returns v hv, fun x hx => ?_⟩
    have hmem : x ∈ accesses pAd a ieList vie := (mem_accesses pAd a ieList vie).2
      (Or.inr (Or.inl ⟨v, hv, List.mem_cons_of_mem _ (List.mem_cons_of_mem _ hx)⟩))
    cases x with
    | msg i => exact h.element v hv i hx
    | vie i => exact h.vieBuffer i hmem
    | wsc i => exact h.wscBuffer i hmem
  last hj := by
    have hlast := h.message _ ((mem_accesses pAd a ieList vie).2 (Or.inr (Or.inr (Or.inl ⟨hj, rfl⟩))))
    omega
  room hj := by
    have hlead := leads_frame pAd a ieList vie
    generalize hr : elements a (fun s => s.loc.lengthVIE) (newArm pAd a) a.msgLen firstElement
      ⟨ieList.start a, vie, Locals.start a⟩ = r at hlead
    cases hlead with
    | @next n hn _ =>
      refine (appendWscAccesses_lt_iff a hn).1 fun i hi => h.vieBuffer i ?_
      exact (mem_accesses pAd a ieList vie).2 (Or.inr (Or.inr (Or.inr ⟨n, hr, hi⟩)))
    | sanityCheck _ hj' => exact absurd (hj.symm.trans hj') nofun
    | reject hj' => exact absurd (hj.symm.trans hj') nofun
    | fault hj' => exact absurd (hj.symm.trans hj') nofun

theorem Fits.staysInside (h : Fits pAd a (ieList.htCapabilityLen ≠ 0)) : StaysInside pAd a ieList vie := by
  have harms := (forall_arms_iff pAd a ieList vie).1 h.looked
  have htest : ∀ v ∈ (frameVisits pAd a ieList vie).1, v.1 + 2 + a.len v.1 ≤ a.msgLen :=
    visits_test pAd a a.msgLen (tracks_start a ieList vie) rfl
  have hheader := h.header
  have hlead := leads_frame pAd a ieList vie
  have hvie : (walkFrame pAd a (ieList.htCapabilityLen ≠ 0)).lengthVIE a < 1024 :=
    walk_lengthVIE_lt pAd a a.msgLen (Nat.zero_lt_succ _)
  refine ⟨fun more s => elements_turns a.msgLen _ _ more (by omega),
    (returns_iff pAd a ieList vie).2 fun v hv => (harms v hv).1, ?_, fun v hv i hi => (harms v hv).2 _ hi, ?_, ?_, ?_⟩
  · intro i hi
    rcases (mem_accesses pAd a ieList vie).1 hi with hi | ⟨v, hv, hi⟩ | ⟨hj, hi⟩ | ⟨n, -, hi⟩
    · have hlt : ∀ x ∈ headerAccesses, x = .msg i → i < 36 := by
        intro x hx hxi
        subst hxi
        simp only [headerAccesses, List.cons_append, List.mem_cons, List.mem_append, List.mem_map, List.mem_range,
          Access.msg.injEq] at hx
        omega
      exact lt_of_lt_of_le (hlt _ hi rfl) hheader
    · have hend := htest v hv
      rcases List.mem_cons.1 hi with hi | hi
      · injection hi with hi
        omega
      rcases List.mem_cons.1 hi with hi | hi
      · injection hi with hi
        omega
      have hin : v.1 ≤ i ∧ i < v.1 + 2 + a.len v.1 := (harms v hv).2 _ hi
      omega
    · have hend := h.last hj
      injection hi with hi
      omega
    · unfold appendWscAccesses at hi
      split_ifs at hi
      · simp at hi
      · exact absurd hi List.not_mem_nil
  · intro b n hn
    unfold peerBeaconAndProbeRspSanity at hn
    generalize elements a (fun s => s.loc.lengthVIE) (newArm pAd a) a.msgLen firstElement
      ⟨ieList.start a, vie, Locals.start a⟩ = r at hlead hn
    cases hlead with
    | @next n' hn' hj =>
      obtain ⟨-, rfl⟩ : _ ∧ newTail pAd a n' = n := by simpa using hn
      rw [lengthVIE_newTail, hn'.lengthVIE, hn'.peerWscIe, hn'.wscLen]
      split_ifs with hc
      · exact h.room hj hc.1 hc.2.1 hc.2.2
      · omega
    | @sanityCheck n' hn' hj =>
      obtain ⟨-, rfl⟩ : _ ∧ n' = n := by simpa using hn
      rw [hn'.lengthVIE]
      omega
    | reject hj => simp at hn
    | fault hj => simp at hn
  · intro i hi
    rcases (mem_accesses pAd a ieList vie).1 hi with hi | ⟨v, hv, hi⟩ | ⟨-, hi⟩ | ⟨n, hr, hi⟩
    · simp [headerAccesses] at hi
    · rcases List.mem_cons.1 hi with hi | hi
      · cases hi
      rcases List.mem_cons.1 hi with hi | hi
      · cases hi
      exact (harms v hv).2 _ hi
    · cases hi
    · rw [hr] at hlead
      cases hlead with
      | next hn hj => exact (appendWscAccesses_lt_iff a hn).2 (h.room hj) i hi
  · intro i hi
    rcases (mem_accesses pAd a ieList vie).1 hi with hi | ⟨v, hv, hi⟩ | ⟨-, hi⟩ | ⟨n, -, hi⟩
    · simp [headerAccesses] at hi
    · rcases List.mem_cons.1 hi with hi | hi
      · cases hi
      rcases List.mem_cons.1 hi with hi | hi
      · cases hi
      exact (harms v hv).2 _ hi
    · cases hi
    · unfold appendWscAccesses at hi
      split_ifs at hi
      · simp at hi
      · exact absurd hi List.not_mem_nil

/-- **Where the parser stays inside.** It does so, and ends, exactly on the frames that have the fixed fields, whose
elements are long enough wherever one is looked at, that do not end in an octet too few for another header, and whose
gathered WSC octets fit into both buffers. -/
theorem staysInside_iff : StaysInside pAd a ieList vie ↔ Fits pAd a (ieList.htCapabilityLen ≠ 0) :=
  ⟨StaysInside.fits pAd a ieList vie, Fits.staysInside pAd a ieList vie⟩

end

/-- Three WSC elements of 251 octets: the third is gathered beyond the 512 octets of its buffer. -/
def wscBeacon : Arrival :=
  beaconWith ((List.range 3).flatMap fun _ => [221, 255, 0x00, 0x50, 0xf2, 0x04] ++ List.replicate 251 0)

set_option maxRecDepth 4000 in
theorem not_staysInside : ¬ StaysInside station wscBeacon .zero zeroMemory := by
  intro h
  have hfits := StaysInside.fits station wscBeacon .zero zeroMemory h
  have hnoHt : decide (BcnIeList.zero.htCapabilityLen ≠ 0) = false := rfl
  rw [hnoHt] at hfits
  have hshort : ¬ ∀ l ∈ (walkFrame station wscBeacon false).looked, l.Fits station wscBeacon := by decide
  exact hshort hfits.looked

end Mt7610u.Mgmt.Beacon
