import Mt7610u.Mlme.PeerBeacon

/-! # Ad-hoc networks that merge

Stations of one ad-hoc network that started apart find each other by their beacons: each of them moves to
the largest BSSID that it hears. -/

namespace Mt7610u.Mlme.Ibss

open Lib Lib.Runs Lib.RunningMax

variable {env : Env} {st : Station} {e : Elem} {bssid : BitVec 48} {k : ℕ} {bcn : Beacon}

def Agrees (st : Station) (c : CipherInfo) : Prop := c.wepStatus = st.wepStatus ∧ c.authMode = st.authMode

/-- The beacon has the station's own SSID, the station is in ad-hoc mode and waits for no
disassociation, and the scan table has the sender or has room for it, with the security settings of the
station. -/
structure Heard (env : Env) (st : Station) (e : Elem) : Prop where
  sane : e.sane = true
  adhoc : st.adhocOn = true
  settled : st.cntlState ≠ cntlWaitDisassoc
  ownSsid : BssTable.ssidEqual e.bcn.ie.ssid e.bcn.ie.ssidLen st.ssid st.ssidLen = true
  room : ∃ k, (enterScanTab env st (copyHtInfo e)).2 = some k ∧
    Agrees st ((enterScanTab env st (copyHtInfo e)).1.bssEntry k).cipher

/-! ### MAC addresses in lexicographic order -/

theorem octets_injective : Function.Injective octets := by
  intro a b h
  have hoctet : ∀ i < 6, a.extractLsb' (8 * (5 - i)) 8 = b.extractLsb' (8 * (5 - i)) 8 := by
    intro i hi
    have hget := congrArg (fun l => l.getD i 0) h
    simp only [octets, List.getD_eq_getElem?_getD, List.getElem?_map, List.getElem?_range hi,
      Option.map_some, Option.getD_some] at hget
    exact BitVec.eq_of_toNat_eq hget
  apply BitVec.eq_of_getLsbD_eq
  intro i hi
  have hbit := congrArg (fun w => w.getLsbD (i % 8)) (hoctet (5 - i / 8) (by omega))
  have hplace : 8 * (5 - (5 - i / 8)) + i % 8 = i := by omega
  simpa [BitVec.getLsbD_extractLsb', hplace, Nat.mod_lt] using hbit

/-! ### What the handler does to the BSSID -/

def radio (st : Station) : BitVec 48 × List SyncCall := (st.bssid, st.calls)

@[simp] theorem radio_scanTab (st : Station) (t : BssTable) : radio { st with scanTab := t } = radio st := rfl

@[simp] theorem radio_linkDown (st : Station) : radio (linkDown st) = radio st := by
  simp only [radio, linkDown]
  split <;> rfl

@[simp] theorem radio_switchChannel (st : Station) (k : ℕ) (channel newChannel : Byte) :
    radio (switchChannel st k channel newChannel) = radio st := by
  simp only [radio, switchChannel]
  split_ifs
  · exact radio_linkDown st
  · exact radio_linkDown st
  · rfl

@[simp] theorem radio_followWidth (env : Env) (st : Station) (e : Elem) :
    radio (followWidth env st e) = radio st := by
  unfold followWidth
  split <;> rfl

@[simp] theorem radio_declareConnected (env : Env) (st : Station) (e : Elem) :
    radio (declareConnected env st e) = radio st := by
  unfold declareConnected
  split_ifs
  · rw [radio_followWidth]
    simp only [radio]
  · rfl
  · exact radio_followWidth env st e

theorem radio_ownBeacon (env : Env) (st : Station) (k : ℕ) (e : Elem) (bcn : Beacon) :
    radio (ownBeacon env st k e bcn) = radio st := by
  simp only [ownBeacon]
  split_ifs
  · exact (radio_scanTab _ _).trans ((radio_linkDown _).trans (radio_switchChannel st k _ _))
  · exact radio_switchChannel st k _ _
  · exact (radio_declareConnected env _ e).trans (radio_switchChannel st k _ _)

theorem bssid_ownBeacon (env : Env) (st : Station) (k : ℕ) (e : Elem) (bcn : Beacon) :
    (ownBeacon env st k e bcn).bssid = st.bssid :=
  congrArg Prod.fst (radio_ownBeacon env st k e bcn)

theorem octets_collapse (st : Station) (bssid : BitVec 48) :
    octets (collapse st bssid).1.bssid = max (octets st.bssid) (octets bssid) := by
  have hiff : exceeds (octets bssid) (octets st.bssid) = true ↔ octets st.bssid < octets bssid := exceeds_iff rfl
  unfold collapse
  split
  · next h => exact (max_eq_right (hiff.1 h).le).symm
  · next h => exact (max_eq_left (not_lt.1 fun hlt => h (hiff.2 hlt))).symm

theorem octets_afterTables (hadhoc : st.adhocOn = true) (hagrees : Agrees st (st.scanTab.bssEntry k).cipher) :
    octets (afterTables env st k (decide (bcn.ie.bssid = st.bssid)) e bcn).bssid =
      max (octets st.bssid) (octets bcn.ie.bssid) := by
  by_cases hmine : bcn.ie.bssid = st.bssid
  · have hmerge : mergeIbss st k (decide (bcn.ie.bssid = st.bssid)) bcn.ie.bssid = some (st, true) := by
      unfold mergeIbss
      simp [hmine]
    unfold afterTables
    rw [hmerge, hmine, max_self]
    exact congrArg octets (bssid_ownBeacon env _ k e bcn)
  · have hmerge : mergeIbss st k (decide (bcn.ie.bssid = st.bssid)) bcn.ie.bssid =
        some (collapse st bcn.ie.bssid) := by
      unfold mergeIbss
      simp [hmine, hadhoc, hagrees.1, hagrees.2]
    unfold afterTables
    rw [hmerge, ← octets_collapse]
    simp only []
    split
    · exact congrArg octets (bssid_ownBeacon env _ k e bcn)
    · rfl

theorem bssid_copyHtInfo (e : Elem) : (copyHtInfo e).ie.bssid = e.bcn.ie.bssid := rfl

def entered (env : Env) (st : Station) (e : Elem) : Station :=
  { st with
    ssidBssTab := enterSsidBssTab env st (copyHtInfo e)
    scanTab := (enterScanTab env st (copyHtInfo e)).1 }

theorem handle_eq {isMyBssid : Bool} (hk : (enterScanTab env st (copyHtInfo e)).2 = some k) :
    handle env st isMyBssid e = afterTables env (entered env st e) k isMyBssid e (copyHtInfo e) := by
  have hentered : enterScanTab env { st with ssidBssTab := enterSsidBssTab env st (copyHtInfo e) }
      (copyHtInfo e) = ((enterScanTab env st (copyHtInfo e)).1, some k) := Prod.ext rfl hk
  simp only [handle]
  rw [hentered]
  rfl

theorem peerBeacon_eq (h : Heard env st e) (hk : (enterScanTab env st (copyHtInfo e)).2 = some k) :
    peerBeacon env st e =
      afterTables env (entered env st e) k (decide (e.bcn.ie.bssid = st.bssid)) e (copyHtInfo e) := by
  rw [← handle_eq hk]
  unfold peerBeacon
  simp [h.sane, h.adhoc, h.ownSsid, h.settled]

/-- **One beacon.** The station is left with the larger of its own BSSID and the one that it hears. -/
theorem octets_peerBeacon (h : Heard env st e) :
    octets (peerBeacon env st e).bssid = max (octets st.bssid) (octets e.bcn.ie.bssid) := by
  obtain ⟨k, hk, hagrees⟩ := h.room
  rw [peerBeacon_eq h hk, ← bssid_copyHtInfo e]
  exact @octets_afterTables env (entered env st e) e k (copyHtInfo e) h.adhoc hagrees

/-! ### Which beacons are heard -/

/-- A station in ad-hoc mode whose scan table has room for `n` more entries and none of other security
settings. -/
structure Ready (st : Station) (n : ℕ) : Prop where
  adhoc : st.adhocOn = true
  notInfra : st.infraOn = false
  settled : st.cntlState ≠ cntlWaitDisassoc
  noSwitch : st.bIEEE80211H = false
  room : st.scanTab.bssNr + n ≤ maxLenOfBssTable
  agree : ∀ k < st.scanTab.bssNr, Agrees st (st.scanTab.bssEntry k).cipher

structure Suits (env : Env) (st : Station) (e : Elem) : Prop where
  sane : e.sane = true
  ownSsid : BssTable.ssidEqual e.bcn.ie.ssid e.bcn.ie.ssidLen st.ssid st.ssidLen = true
  agrees : ∀ b, Agrees st (BssEntry.bssEntrySet env.toBssEnv b (copyHtInfo e)).cipher

theorem cipher_setEid (b : BssEntry) (eid : ℕ → Byte) : (b.setEid eid).cipher = b.cipher := by
  unfold BssEntry.setEid
  split_ifs <;> rfl

theorem cipher_walkEids (pVIE : ℕ → Byte) (lengthVIE length : ℕ) (b : BssEntry) :
    (BssEntry.walkEids pVIE lengthVIE length b).cipher = b.cipher := by
  fun_induction BssEntry.walkEids pVIE lengthVIE length b with
  | case1 length b hfit ih => rw [ih, cipher_setEid]
  | case2 length b hfit => rfl

theorem cipher_bssEntrySet (env : BssEnv) (b : BssEntry) (bcn : Beacon) :
    ∃ b', (BssEntry.bssEntrySet env b bcn).cipher = env.bssCipherParse b' := by
  simp only [BssEntry.bssEntrySet]
  rw [cipher_walkEids]
  exact ⟨_, rfl⟩

/-- What later beacons are measured by is the same. -/
structure Keeps (st st' : Station) : Prop where
  ssid : st'.ssid = st.ssid
  ssidLen : st'.ssidLen = st.ssidLen
  wepStatus : st'.wepStatus = st.wepStatus
  authMode : st'.authMode = st.authMode
  adhocOn : st'.adhocOn = st.adhocOn
  infraOn : st'.infraOn = st.infraOn
  cntlState : st'.cntlState = st.cntlState
  bIEEE80211H : st'.bIEEE80211H = st.bIEEE80211H
  bssNr : st'.scanTab.bssNr = st.scanTab.bssNr
  cipher : ∀ i, (st'.scanTab.bssEntry i).cipher = (st.scanTab.bssEntry i).cipher

theorem Keeps.refl (st : Station) : Keeps st st := ⟨rfl, rfl, rfl, rfl, rfl, rfl, rfl, rfl, rfl, fun _ => rfl⟩

theorem Keeps.trans {st st' st'' : Station} (h : Keeps st st') (h' : Keeps st' st'') : Keeps st st'' where
  ssid := h'.ssid.trans h.ssid
  ssidLen := h'.ssidLen.trans h.ssidLen
  wepStatus := h'.wepStatus.trans h.wepStatus
  authMode := h'.authMode.trans h.authMode
  adhocOn := h'.adhocOn.trans h.adhocOn
  infraOn := h'.infraOn.trans h.infraOn
  cntlState := h'.cntlState.trans h.cntlState
  bIEEE80211H := h'.bIEEE80211H.trans h.bIEEE80211H
  bssNr := h'.bssNr.trans h.bssNr
  cipher := fun i => (h'.cipher i).trans (h.cipher i)

theorem keeps_collapse (st : Station) (bssid : BitVec 48) : Keeps st (collapse st bssid).1 := by
  unfold collapse
  split
  · exact ⟨rfl, rfl, rfl, rfl, rfl, rfl, rfl, rfl, rfl, fun _ => rfl⟩
  · exact Keeps.refl st

theorem keeps_refresh (st : Station) (k : ℕ) (bcn : Beacon) :
    Keeps st { st with scanTab := refresh st.scanTab k bcn } := by
  refine ⟨rfl, rfl, rfl, rfl, rfl, rfl, rfl, rfl, rfl, fun i => ?_⟩
  by_cases hi : i = k
  · subst hi
    simp [refresh]
  · simp [refresh, hi]

theorem keeps_ownBeacon (hinfra : st.infraOn = false) (hswitch : st.bIEEE80211H = false) :
    Keeps st (ownBeacon env st k e bcn) := by
  have hsame : switchChannel st k bcn.ie.channel e.newChannel = st := by
    unfold switchChannel
    simp [hswitch]
  have hwidth : ∀ st : Station, st.infraOn = false → followWidth env st e = st := by
    intro st h
    unfold followWidth
    simp [h]
  simp only [ownBeacon, hsame]
  split_ifs with hprivacy hno
  · rw [hinfra] at hno
    exact absurd hno (by simp)
  · exact Keeps.refl st
  · unfold declareConnected
    rw [hwidth st hinfra, hwidth { st with wanted := { st.wanted with staConnected := true } } hinfra]
    split_ifs
    · exact ⟨rfl, rfl, rfl, rfl, rfl, rfl, rfl, rfl, rfl, fun _ => rfl⟩
    · exact Keeps.refl st
    · exact Keeps.refl st

theorem keeps_afterTables {isMyBssid : Bool} (hinfra : st.infraOn = false)
    (hswitch : st.bIEEE80211H = false) : Keeps st (afterTables env st k isMyBssid e bcn) := by
  unfold afterTables
  have hmerge : ∀ p, mergeIbss st k isMyBssid bcn.ie.bssid = some p → Keeps st p.1 := by
    intro p hp
    unfold mergeIbss at hp
    split_ifs at hp
    · obtain rfl : collapse st bcn.ie.bssid = p := by simpa using hp
      exact keeps_collapse st _
    · obtain rfl : (st, isMyBssid) = p := by simpa using hp
      exact Keeps.refl st
  cases hp : mergeIbss st k isMyBssid bcn.ie.bssid with
  | none => exact Keeps.refl st
  | some p =>
    have hkeeps := (hmerge p hp).trans (keeps_refresh p.1 k bcn)
    simp only []
    split
    · exact hkeeps.trans (keeps_ownBeacon (hkeeps.infraOn.trans hinfra) (hkeeps.bIEEE80211H.trans hswitch))
    · exact hkeeps

theorem entered_of_ready {n : ℕ} (h : Ready st (n + 1)) (he : Suits env st e) :
    ∃ k, (enterScanTab env st (copyHtInfo e)).2 = some k ∧
      k < (enterScanTab env st (copyHtInfo e)).1.bssNr ∧
      (enterScanTab env st (copyHtInfo e)).1.bssNr ≤ st.scanTab.bssNr + 1 ∧
      ∀ i < (enterScanTab env st (copyHtInfo e)).1.bssNr,
        Agrees st ((enterScanTab env st (copyHtInfo e)).1.bssEntry i).cipher := by
  unfold enterScanTab
  cases hfind : st.scanTab.bssTableSearch (copyHtInfo e).ie.bssid (copyHtInfo e).ie.channel with
  | some k =>
    have hk : k ∈ List.range st.scanTab.bssNr := List.mem_of_find?_eq_some hfind
    exact ⟨k, rfl, List.mem_range.1 hk, Nat.le_succ _, h.agree⟩
  | none =>
    have hroom : ¬st.scanTab.bssNr ≥ maxLenOfBssTable := by
      have := h.room
      omega
    simp only [BssTable.bssTableSetEntry, hfind, if_neg hroom]
    refine ⟨st.scanTab.bssNr, rfl, Nat.lt_succ_self _, le_rfl, fun i hi => ?_⟩
    by_cases hlast : i = st.scanTab.bssNr
    · subst hlast
      simpa [BssTable.setSlot] using he.agrees _
    · simpa [BssTable.setSlot, hlast] using h.agree i (by omega)

/-- **All beacons are heard** by a station that is ready for as many, if they suit it. -/
theorem along_heard {es : List Elem} (h : Ready st es.length) (hes : ∀ e ∈ es, Suits env st e) :
    Along (peerBeacon env) (Heard env) st es := by
  induction es generalizing st with
  | nil => trivial
  | cons e es ih =>
    have he := hes e List.mem_cons_self
    obtain ⟨k, hk, hlt, hnr, hagree⟩ := entered_of_ready h he
    have hheard : Heard env st e := ⟨he.sane, h.adhoc, h.settled, he.ownSsid, k, hk, hagree k hlt⟩
    have hkeeps : Keeps (entered env st e) (peerBeacon env st e) := by
      rw [peerBeacon_eq hheard hk]
      exact keeps_afterTables h.notInfra h.noSwitch
    have hwep : (peerBeacon env st e).wepStatus = st.wepStatus := hkeeps.wepStatus
    have hauth : (peerBeacon env st e).authMode = st.authMode := hkeeps.authMode
    have hnr' : (peerBeacon env st e).scanTab.bssNr = (enterScanTab env st (copyHtInfo e)).1.bssNr := hkeeps.bssNr
    have hagrees : ∀ c, Agrees (peerBeacon env st e) c ↔ Agrees st c := by
      intro c
      rw [Agrees, Agrees, hwep, hauth]
    refine ⟨hheard, ih ?_ fun e' he' => ?_⟩
    · refine ⟨hkeeps.adhocOn.trans h.adhoc, hkeeps.infraOn.trans h.notInfra, ?_,
        hkeeps.bIEEE80211H.trans h.noSwitch, ?_, fun i hi => ?_⟩
      · rw [hkeeps.cntlState]
        exact h.settled
      · have hroom := h.room
        rw [List.length_cons] at hroom
        omega
      · rw [hagrees, hkeeps.cipher]
        rw [hnr'] at hi
        exact hagree i hi
    · have hsuits := hes e' (List.mem_cons_of_mem _ he')
      refine ⟨hsuits.sane, ?_, fun b => (hagrees _).2 (hsuits.agrees b)⟩
      rw [hkeeps.ssid, hkeeps.ssidLen]
      exact hsuits.ownSsid

/-! ### Runs of beacons -/

def bssids (es : List Elem) : List (BitVec 48) := es.map fun e => e.bcn.ie.bssid

/-- The run leaves the station with the largest of its own BSSID and those of the beacons, and no beacon
makes it smaller. -/
def MergesUpward (env : Env) (st : Station) (es : List Elem) : Prop :=
  IsGreatest {o | o = octets st.bssid ∨ o ∈ (bssids es).map octets}
      (octets (run (peerBeacon env) st es).bssid) ∧
    ∀ pre e rest, es = pre ++ e :: rest →
      octets (run (peerBeacon env) st pre).bssid ≤ octets (run (peerBeacon env) st (pre ++ [e])).bssid

def Outdone (st : Station) (es : List Elem) : Prop := ∃ b ∈ bssids es, octets st.bssid ≤ octets b

theorem octets_run {es : List Elem} (h : Along (peerBeacon env) (Heard env) st es) :
    octets (run (peerBeacon env) st es).bssid = ((bssids es).map octets).foldl max (octets st.bssid) := by
  have hstep : ∀ st e, Heard env st e → octets (peerBeacon env st e).bssid =
      max (octets st.bssid) (octets e.bcn.ie.bssid) := fun _ _ h => octets_peerBeacon h
  have hvalues : (bssids es).map octets = es.map fun e => octets e.bcn.ie.bssid := by
    rw [bssids, List.map_map]
    rfl
  rw [hvalues]
  exact @key_run _ _ _ _ (peerBeacon env) (Heard env) (fun st => octets st.bssid)
    (fun e => octets e.bcn.ie.bssid) hstep es st h

theorem mergesUpward {es : List Elem} (h : Along (peerBeacon env) (Heard env) st es) : MergesUpward env st es := by
  refine ⟨?_, ?_⟩
  · rw [octets_run h]
    exact isGreatest_foldl_max _ _
  · rintro pre e rest rfl
    obtain ⟨-, he, -⟩ := along_append.1 h
    rw [run_append]
    exact (le_max_left _ _).trans (octets_peerBeacon he).ge

/-- **Merging does not depend on the order of the beacons.** A station that hears beacons of its own network
ends with the largest BSSID, whichever way they come, and never moves to a smaller one. Two stations that
hear the same BSSIDs end with the same one exactly if they began with the same one or each of them heard
one that is not below its own. -/
theorem mergesIn_every_order {env' : Env} {st' : Station} {es es' : List Elem}
    (h : Along (peerBeacon env) (Heard env) st es) (h' : Along (peerBeacon env') (Heard env') st' es') :
    MergesUpward env st es ∧ MergesUpward env' st' es' ∧
      ((∀ b, b ∈ bssids es ↔ b ∈ bssids es') →
        ((run (peerBeacon env) st es).bssid = (run (peerBeacon env') st' es').bssid ↔
          st.bssid = st'.bssid ∨ Outdone st es ∧ Outdone st' es')) := by
  refine ⟨mergesUpward h, mergesUpward h', fun hsame => ?_⟩
  have hmem : ∀ o, o ∈ (bssids es).map octets ↔ o ∈ (bssids es').map octets := by
    intro o
    simp only [List.mem_map, hsame]
  rw [← octets_injective.eq_iff, octets_run h, octets_run h', foldl_max_eq_iff hmem, octets_injective.eq_iff]
  simp only [Outdone, List.mem_map, exists_exists_and_eq_and]

def sampleEnv : Env where
  getCentChByHtinfo := fun _ _ => 0
  bssCipherParse := fun _ => ⟨false, zeroMemory, zeroMemory, 0, 0, wepDisabled⟩
  controlChannel := fun st _ => st.channel

def sampleStation (bssid : BitVec 48) : Station where
  bssid := bssid
  ssid := zeroMemory
  ssidLen := 0
  channel := 6
  bIEEE80211H := false
  channelList := [1, 6, 11]
  wepStatus := wepDisabled
  authMode := 0
  portSecured := false
  ieee8021X := false
  wpaSupplicantUP := 0
  currReqIsFromNdis := false
  infraOn := false
  adhocOn := true
  cntlState := 0
  wanted := ⟨false, false, 0, zeroMemory, 0⟩
  scanTab := BssTable.fresh fun _ => none
  ssidBssTab := BssTable.fresh fun _ => none
  calls := []

def sampleElem (bssid : BitVec 48) : Elem where
  sane := true
  bcn :=
    { ie :=
        { bssid := bssid, ssid := zeroMemory, ssidLen := 0, bssType := 0, beaconPeriod := 100, channel := 6,
          atimWin := 0, capabilityInfo := 0x0002, supRate := zeroMemory, supRateLen := 0,
          extRate := zeroMemory, extRateLen := 0, ckipFlag := 0, timeStamp := zeroMemory,
          cfParm := ⟨false, 0, 0, 0, 0⟩, edcaParm := ⟨false, zeroMemory⟩, qbssLoad := ⟨false, zeroMemory⟩,
          qosCapability := ⟨false, zeroMemory⟩, htCapabilityLen := 0, htCapability := zeroMemory,
          addHtInfoLen := 0, addHtInfo := zeroMemory, newExtChannelOffset := 0, vhtCapIe := zeroMemory,
          vhtOpIe := zeroMemory, vhtCapLen := 0, vhtOpLen := 0 }
      rssi := 0
      lengthVIE := 0
      pVIE := zeroMemory
      now := 0 }
  preNHtCapabilityLen := 0
  newChannel := 0
  entered := true

theorem along_sample (bssid : BitVec 48) {bs : List (BitVec 48)} (h : bs.length ≤ maxLenOfBssTable) :
    Along (peerBeacon sampleEnv) (Heard sampleEnv) (sampleStation bssid) (bs.map sampleElem) := by
  apply along_heard
  · refine ⟨rfl, rfl, Nat.zero_ne_one, rfl, ?_, fun k hk => absurd hk (Nat.not_lt_zero k)⟩
    rw [List.length_map]
    exact (Nat.zero_add _).trans_le h
  · intro e he
    obtain ⟨b, -, rfl⟩ := List.mem_map.1 he
    refine ⟨rfl, rfl, fun b => ?_⟩
    obtain ⟨b', hb'⟩ := cipher_bssEntrySet sampleEnv.toBssEnv b (copyHtInfo (sampleElem _))
    rw [Agrees, hb']
    exact ⟨rfl, rfl⟩

theorem mergesIn_every_order_sample :
    MergesUpward sampleEnv (sampleStation 1) ([5, 3].map sampleElem) ∧
      MergesUpward sampleEnv (sampleStation 2) ([3, 5, 3].map sampleElem) ∧
      (run (peerBeacon sampleEnv) (sampleStation 1) ([5, 3].map sampleElem)).bssid =
        (run (peerBeacon sampleEnv) (sampleStation 2) ([3, 5, 3].map sampleElem)).bssid := by
  have h := mergesIn_every_order (@along_sample 1 [5, 3] (by decide))
    (@along_sample 2 [3, 5, 3] (by decide))
  refine ⟨h.1, h.2.1, (h.2.2 fun b => ?_).2 (Or.inr ⟨⟨5, ?_, ?_⟩, 5, ?_, ?_⟩)⟩
  · simp [bssids, sampleElem, or_comm]
  · simp [bssids, sampleElem]
  · decide
  · simp [bssids, sampleElem]
  · decide

/-! ### The chip -/

end Mt7610u.Mlme.Ibss
