import Mt7610u.Channel.WellBuilt

/-! # The channels of a scan

A scan keeps the number of its channel only, and finds its place in the list again each time. -/

namespace Mt7610u.Channel

/-! ### The functions -/

inductive ScanMode
  | SCAN_ACTIVE
  | SCAN_CISCO_ACTIVE
  | FAST_SCAN_ACTIVE
  | SCAN_2040_BSS_COEXIST
  | SCAN_PASSIVE
  | SCAN_CISCO_PASSIVE
  | SCAN_CISCO_NOISE
  | SCAN_CISCO_CHANNEL_LOAD
  deriving DecidableEq, Repr

structure ScanState where
  /-- `MlmeAux.Channel` -/
  channel : ℕ
  scanType : ScanMode
  bFastConnect : Bool
  bNotFirstScan : Bool

def FirstChannel (s : Channels) : ℕ := (entryAt s.channelList 0).channel

/-- The loop of `NextChannel` from an index on. -/
def nextFrom (s : Channels) (scanType : ScanMode) : ℕ → ℕ → ℕ → ℕ
  | 0, _, _ => 0
  | turns + 1, i, channel =>
    if channel = (entryAt s.channelList i).channel then
      -- only the channels that a 20/40 coexistence scan is about
      if scanType = .SCAN_2040_BSS_COEXIST ∧ (entryAt s.channelList (i + 1)).channel > 14 then
        nextFrom s scanType turns (i + 1) (entryAt s.channelList (i + 1)).channel
      else (entryAt s.channelList (i + 1)).channel
    else nextFrom s scanType turns (i + 1) channel

def NextChannel (s : Channels) (scanType : ScanMode) (channel : ℕ) : ℕ :=
  nextFrom s scanType (s.channelListNum - 1) 0 channel

def ScanMode.isCisco (scanType : ScanMode) : Bool :=
  scanType = .SCAN_CISCO_ACTIVE ∨ scanType = .SCAN_CISCO_PASSIVE ∨ scanType = .SCAN_CISCO_NOISE ∨
    scanType = .SCAN_CISCO_CHANNEL_LOAD

/-- `ScanTimeoutAction`. The scan ends at channel 0. -/
def ScanTimeoutAction (s : Channels) (a : ScanState) : ScanState :=
  let a :=
    if a.bFastConnect ∧ ¬a.bNotFirstScan then { a with channel := 0, bNotFirstScan := true }
    else { a with channel := NextChannel s a.scanType a.channel }
  if a.scanType.isCisco then { a with channel := 0 } else a

/-! ### Scans -/

/-- A scan from a state on visits these channels, and ends. -/
inductive Visits (s : Channels) : ScanState → List ℕ → Prop
  | ended {a : ScanState} (h : a.channel = 0) : Visits s a []
  | visit {a : ScanState} {l : List ℕ} (h : a.channel ≠ 0) (hrest : Visits s (ScanTimeoutAction s a) l) :
      Visits s a (a.channel :: l)

structure ScanState.Full (a : ScanState) : Prop where
  notCisco : a.scanType.isCisco = false
  notFast : ¬(a.bFastConnect ∧ ¬a.bNotFirstScan)

def ScanMode.visits (scanType : ScanMode) (channel : ℕ) : Bool := scanType ≠ .SCAN_2040_BSS_COEXIST ∨ channel ≤ 14

def Channels.listedChannels (s : Channels) : List ℕ := s.listed.map ChannelTxPower.channel

def Channels.toVisit (s : Channels) (scanType : ScanMode) : List ℕ := s.listedChannels.filter scanType.visits

/-- **Which lists are scanned as they should be**: no entry to visit is 0, none comes twice, the first entry is one of
them, and the place of the first entry is empty when nothing is listed. -/
structure Clean (s : Channels) (scanType : ScanMode) : Prop where
  nonzero : 0 ∉ s.toVisit scanType
  once : (s.toVisit scanType).Nodup
  head : ∀ c, s.listedChannels.head? = some c → scanType.visits c = true
  empty : s.channelListNum = 0 → FirstChannel s = 0

variable {s : Channels} {a : ScanState}

theorem ScanState.Full.timeout (h : a.Full) :
    ScanTimeoutAction s a = { a with channel := NextChannel s a.scanType a.channel } := by
  unfold ScanTimeoutAction
  rw [if_neg h.notFast, if_neg (by rw [h.notCisco]; exact Bool.false_ne_true)]

theorem ScanState.Full.withChannel (h : a.Full) (channel : ℕ) : ({ a with channel := channel } : ScanState).Full :=
  ⟨h.notCisco, h.notFast⟩

theorem Visits.det {l l' : List ℕ} (h : Visits s a l) (h' : Visits s a l') : l = l' := by
  induction h generalizing l' with
  | ended h0 =>
    cases h' with
    | ended _ => rfl
    | visit hne _ => exact absurd h0 hne
  | visit hne _ ih =>
    cases h' with
    | ended h0 => exact absurd h0 hne
    | visit _ hrest' => rw [ih hrest']

theorem Visits.not_mem_zero {l : List ℕ} (h : Visits s a l) : 0 ∉ l := by
  induction h with
  | ended _ => exact List.not_mem_nil
  | visit hne _ ih => exact List.not_mem_cons_of_ne_of_not_mem (Ne.symm hne) ih

theorem Visits.suffix {l : List ℕ} (ha : a.Full) (h : Visits s a l) {c : ℕ} (hc : c ∈ l) :
    ∃ pre post, l = pre ++ c :: post ∧ Visits s { a with channel := c } (c :: post) := by
  induction h with
  | ended _ => exact absurd hc List.not_mem_nil
  | @visit a l hne hrest ih =>
    rcases List.mem_cons.1 hc with rfl | hc
    · exact ⟨[], l, rfl, .visit hne hrest⟩
    · rw [ha.timeout] at ih
      obtain ⟨pre, post, rfl, hv⟩ := ih (ha.withChannel _) hc
      exact ⟨a.channel :: pre, post, rfl, hv⟩

theorem Visits.nodup {l : List ℕ} (ha : a.Full) (h : Visits s a l) : l.Nodup := by
  induction h with
  | ended _ => exact List.nodup_nil
  | @visit a l hne hrest ih =>
    have hfull : (ScanTimeoutAction s a).Full := by
      rw [ha.timeout]
      exact ha.withChannel _
    refine List.nodup_cons.2 ⟨fun hmem => ?_, ih hfull⟩
    obtain ⟨pre, post, hl, hv⟩ := hrest.suffix hfull hmem
    have hsame : ({ ScanTimeoutAction s a with channel := a.channel } : ScanState) = a := by rw [ha.timeout]
    rw [hsame] at hv
    have hdet := congrArg List.length ((Visits.visit hne hrest).det hv)
    rw [hl, List.length_cons, List.length_append, List.length_cons] at hdet
    omega

/-! ### The next channel in a list -/

/-- The loop of `NextChannel` over the channels of a list. -/
def nextIn (p : ℕ → Bool) : List ℕ → ℕ → ℕ
  | c :: d :: rest, channel =>
    if channel = c then if p d then d else nextIn p (d :: rest) d else nextIn p (d :: rest) channel
  | _, _ => 0

theorem nextIn_head (p : ℕ → Bool) (c : ℕ) (rest : List ℕ) : nextIn p (c :: rest) c = (rest.find? p).getD 0 := by
  induction rest generalizing c with
  | nil => rfl
  | cons d rest ih =>
    unfold nextIn
    rw [if_pos rfl, List.find?_cons]
    cases hd : p d with
    | true => rfl
    | false => exact ih d

theorem nextIn_of_not_mem (p : ℕ → Bool) {c : ℕ} {pre rest : List ℕ} (h : c ∉ pre) :
    nextIn p (pre ++ c :: rest) c = (rest.find? p).getD 0 := by
  induction pre with
  | nil => exact nextIn_head p c rest
  | cons d pre ih =>
    have hd : c ≠ d := List.ne_of_not_mem_cons h
    have hpre : c ∉ pre := List.not_mem_of_not_mem_cons h
    rw [← ih hpre]
    cases pre with
    | nil =>
      change (if c = d then _ else _) = _
      rw [if_neg hd]
      rfl
    | cons e pre =>
      change (if c = d then _ else _) = _
      rw [if_neg hd]
      rfl

theorem nextFrom_eq (scanType : ScanMode) (turns i channel : ℕ) :
    nextFrom s scanType turns i channel =
      nextIn scanType.visits ((List.range' i (turns + 1)).map fun j => (entryAt s.channelList j).channel) channel := by
  induction turns generalizing i channel with
  | zero => rfl
  | succ turns ih =>
    have hvisits : scanType.visits (entryAt s.channelList (i + 1)).channel = true ↔
        ¬(scanType = .SCAN_2040_BSS_COEXIST ∧ (entryAt s.channelList (i + 1)).channel > 14) := by
      unfold ScanMode.visits
      rw [decide_eq_true_iff, not_and, gt_iff_lt, Nat.not_lt, or_iff_not_imp_left, not_not]
    rw [List.range'_succ, List.range'_succ, List.map_cons, List.map_cons]
    unfold nextFrom nextIn
    by_cases hc : channel = (entryAt s.channelList i).channel
    · rw [if_pos hc, if_pos hc]
      by_cases hskip : scanType = .SCAN_2040_BSS_COEXIST ∧ (entryAt s.channelList (i + 1)).channel > 14
      · rw [if_pos hskip, if_neg (fun h => (hvisits.1 h) hskip)]
        rw [ih, List.range'_succ, List.map_cons]
      · rw [if_neg hskip, if_pos (hvisits.2 hskip)]
    · rw [if_neg hc, if_neg hc]
      rw [ih, List.range'_succ, List.map_cons]

theorem listedChannels_eq (s : Channels) :
    s.listedChannels = (List.range' 0 s.channelListNum).map fun j => (entryAt s.channelList j).channel := by
  unfold Channels.listedChannels Channels.listed
  rw [List.map_map, List.range_eq_range']
  rfl

theorem NextChannel_eq (scanType : ScanMode) (channel : ℕ) (h : s.channelListNum ≠ 0) :
    NextChannel s scanType channel = nextIn scanType.visits s.listedChannels channel := by
  unfold NextChannel
  rw [nextFrom_eq, listedChannels_eq, Nat.sub_add_cancel (Nat.pos_of_ne_zero h)]

/-! ### The result -/

theorem visits_rest (ha : a.Full) (hnum : s.channelListNum ≠ 0) {pre rest : List ℕ}
    (hlist : s.listedChannels = pre ++ rest) (hzero : 0 ∉ s.toVisit a.scanType) (honce : (s.toVisit a.scanType).Nodup)
    (hstart : a.channel = (rest.find? a.scanType.visits).getD 0) : Visits s a (rest.filter a.scanType.visits) := by
  induction rest generalizing pre a with
  | nil => exact .ended hstart
  | cons c rest ih =>
    have hnext : s.listedChannels = (pre ++ [c]) ++ rest := by rw [hlist, List.append_assoc, List.singleton_append]
    cases hc : a.scanType.visits c with
    | false =>
      rw [List.find?_cons, hc] at hstart
      rw [List.filter_cons_of_neg (by rw [hc]; exact Bool.false_ne_true)]
      exact ih ha hnext hzero honce hstart
    | true =>
      rw [List.find?_cons, hc] at hstart
      have hstart : a.channel = c := hstart
      have hmem : c ∈ s.toVisit a.scanType := by
        unfold Channels.toVisit
        rw [hlist]
        exact List.mem_filter.2 ⟨List.mem_append_right _ List.mem_cons_self, hc⟩
      have hpre : c ∉ pre := by
        intro hin
        unfold Channels.toVisit at honce
        rw [hlist, List.filter_append, List.filter_cons_of_pos hc] at honce
        exact (List.nodup_append.1 honce).2.2 c (List.mem_filter.2 ⟨hin, hc⟩) c List.mem_cons_self rfl
      have hafter : NextChannel s a.scanType c = (rest.find? a.scanType.visits).getD 0 := by
        rw [NextChannel_eq _ _ hnum, hlist]
        exact nextIn_of_not_mem _ hpre
      rw [List.filter_cons_of_pos hc]
      have hne : a.channel ≠ 0 := by
        rintro h0
        rw [← hstart, h0] at hmem
        exact hzero hmem
      have hvisit := Visits.visit (s := s) hne (l := rest.filter a.scanType.visits) (by
        rw [ha.timeout, hstart, hafter]
        exact @ih { a with channel := (rest.find? a.scanType.visits).getD 0 } (ha.withChannel _) (pre ++ [c]) hnext
          hzero honce rfl)
      rwa [hstart] at hvisit

theorem FirstChannel_eq (h : s.channelListNum ≠ 0) : s.listedChannels.head? = some (FirstChannel s) := by
  obtain ⟨n, hn⟩ := Nat.exists_eq_succ_of_ne_zero h
  rw [listedChannels_eq, hn, List.range'_succ, List.map_cons]
  rfl

theorem visits_toVisit_iff (ha : a.Full) (hstart : a.channel = FirstChannel s) :
    Visits s a (s.toVisit a.scanType) ↔ Clean s a.scanType := by
  by_cases hnum : s.channelListNum = 0
  · have hnil : s.listedChannels = [] := by rw [listedChannels_eq, hnum]; rfl
    have hvisit : s.toVisit a.scanType = [] := by unfold Channels.toVisit; rw [hnil]; rfl
    rw [hvisit]
    constructor
    · intro h
      refine ⟨?_, ?_, fun c hc => ?_, fun _ => ?_⟩
      · rw [hvisit]
        exact List.not_mem_nil
      · rw [hvisit]
        exact List.nodup_nil
      · rw [hnil] at hc
        exact absurd hc (by simp)
      · cases h with
        | ended h0 => exact hstart.symm.trans h0
    · exact fun h => .ended (hstart.trans (h.empty hnum))
  · have hhead := FirstChannel_eq hnum
    constructor
    · intro h
      refine ⟨h.not_mem_zero, h.nodup ha, fun c hc => ?_, fun h0 => absurd h0 hnum⟩
      obtain rfl : FirstChannel s = c := Option.some.inj (hhead.symm.trans hc)
      -- the first channel that is visited is the first of the list
      have hall : ∀ d ∈ s.toVisit a.scanType, a.scanType.visits d = true := fun d hd => (List.mem_filter.1 hd).2
      generalize hl : s.toVisit a.scanType = l at h hall
      cases h with
      | ended h0 =>
        by_contra hno
        have hzero : a.scanType.visits 0 = true := decide_eq_true (Or.inr (Nat.zero_le _))
        rw [← hstart, h0] at hno
        exact hno hzero
      | visit _ _ => exact hstart ▸ hall _ List.mem_cons_self
    · intro h
      have hlist : s.listedChannels = [] ++ s.listedChannels := rfl
      refine visits_rest ha hnum hlist h.nonzero h.once ?_
      obtain ⟨rest, hrest⟩ : ∃ rest, s.listedChannels = FirstChannel s :: rest := by
        cases hl : s.listedChannels with
        | nil =>
          rw [hl] at hhead
          exact absurd hhead (by simp)
        | cons c rest =>
          rw [hl] at hhead
          exact ⟨rest, congrArg (· :: rest) (Option.some.inj hhead)⟩
      rw [hrest, List.find?_cons, h.head _ hhead]
      exact hstart

/-! ### The lists of `BuildChannelList` -/

variable {cfg : Config} {scanType : ScanMode}

theorem channel_listBand {txPower : List ChannelTxPower} {radarCh : List ℕ} {n : ℕ} (xs : List (ℕ × BitVec 8)) {i : ℕ}
    {l : List ChannelTxPower} (hlen : i + xs.length ≤ l.length) (hzero : ∀ j, i ≤ j → entryAt l j = .zero) :
    (listBand txPower radarCh n xs i l).length = l.length ∧
      (∀ j < i, entryAt (listBand txPower radarCh n xs i l) j = entryAt l j) ∧
      (∀ k x, xs[k]? = some x →
        (entryAt (listBand txPower radarCh n xs i l) (i + k)).channel = (powered txPower x).channel) ∧
      ∀ j, i + xs.length ≤ j → entryAt (listBand txPower radarCh n xs i l) j = .zero := by
  induction xs generalizing i l with
  | nil => exact ⟨rfl, fun _ _ => rfl, fun k x hk => absurd hk (by simp), hzero⟩
  | cons x xs ih =>
    rw [List.length_cons] at hlen
    have hstep := fun j => @entryAt_listChannel txPower radarCh n i x.1 x.2 l (by omega) j
    rw [hzero i (Nat.le_refl _)] at hstep
    obtain ⟨hlength, hbefore, hhere, hafter⟩ := @ih (i + 1) (listChannel txPower radarCh n i x.1 x.2 l)
      (by rw [(hstep 0).1]; omega) (fun j hj => by rw [(hstep j).2, if_neg (by omega), hzero j (by omega)])
    rw [List.length_cons]
    refine ⟨hlength.trans (hstep 0).1, fun j hj => ?_, fun k y hk => ?_, fun j hj => hafter j (by omega)⟩
    · exact (hbefore j (by omega)).trans (by rw [(hstep j).2, if_neg (by omega)])
    · rcases k with _ | k
      · obtain rfl := Option.some.inj hk
        refine (congrArg ChannelTxPower.channel (hbefore i (Nat.lt_succ_self _))).trans ?_
        rw [(hstep i).2, if_pos rfl, channel_finish]
        rfl
      · have := hhere k y hk
        rwa [Nat.add_assoc, Nat.add_comm 1 k] at this

theorem listedChannels_BuildChannelList {band2 band5 : List (ℕ × BitVec 8)} (h2 : cfg.band2GHZ = some band2)
    (h5 : cfg.band5GHZ = some band5) (s : Channels) :
    (BuildChannelList cfg s).listedChannels = (band2 ++ band5).map fun x => (powered cfg.txPower x).channel := by
  have hlen2 := (Config.band2GHZ_spec h2).2.2.1
  have hlen5 := (Config.band5GHZ_spec h5).2.2
  have hmax : MAX_NUM_OF_CHANNELS = 59 := rfl
  obtain ⟨hlength, -, hhere2, hafter2⟩ := @channel_listBand cfg.txPower [] s.channelListNum band2 0
    (List.replicate MAX_NUM_OF_CHANNELS .zero) (by rw [List.length_replicate]; omega)
    (fun j _ => holds_replicate _ j)
  rw [Nat.zero_add] at hafter2
  obtain ⟨-, hbefore5, hhere5, -⟩ := @channel_listBand cfg.txPower radarCh s.channelListNum band5 band2.length
    (listBand cfg.txPower [] s.channelListNum band2 0 (List.replicate MAX_NUM_OF_CHANNELS .zero))
    (by rw [hlength, List.length_replicate]; omega) hafter2
  have hbuild : BuildChannelList cfg s = { s with
      channelList := listBand cfg.txPower radarCh s.channelListNum band5 band2.length
        (listBand cfg.txPower [] s.channelListNum band2 0 (List.replicate MAX_NUM_OF_CHANNELS .zero))
      channelListNum := band2.length + band5.length } := by
    unfold BuildChannelList
    rw [h2, h5]
  rw [listedChannels_eq, hbuild]
  refine List.ext_getElem? fun j => ?_
  rw [List.getElem?_map, List.getElem?_map]
  rcases Nat.lt_or_ge j (band2.length + band5.length) with hj | hj
  · rw [List.getElem?_range' hj, Option.map_some, Nat.zero_add, Nat.one_mul]
    rcases Nat.lt_or_ge j band2.length with hj2 | hj2
    · rw [List.getElem?_append_left hj2, List.getElem?_eq_getElem hj2, Option.map_some]
      have hchannel := hhere2 j band2[j] (List.getElem?_eq_getElem hj2)
      rw [Nat.zero_add] at hchannel
      exact congrArg some ((congrArg ChannelTxPower.channel (hbefore5 j hj2)).trans hchannel)
    · have hj5 : j - band2.length < band5.length := by omega
      rw [List.getElem?_append_right hj2, List.getElem?_eq_getElem hj5, Option.map_some]
      have hchannel := hhere5 (j - band2.length) _ (List.getElem?_eq_getElem hj5)
      rw [Nat.add_sub_cancel' hj2] at hchannel
      exact congrArg some hchannel
  · rw [List.getElem?_eq_none (by rw [List.length_range']; exact hj),
      List.getElem?_eq_none (by rw [List.length_append]; exact hj)]
    rfl

/-- **A list of `BuildChannelList` is clean** when every channel of the regions has a power; and for a coexistence scan
there has to be a 2.4 GHz band, or nothing at all. -/
theorem clean_BuildChannelList_iff {band2 band5 : List (ℕ × BitVec 8)} (h2 : cfg.band2GHZ = some band2)
    (h5 : cfg.band5GHZ = some band5) (s : Channels) :
    Clean (BuildChannelList cfg s) scanType ↔
      (∀ x ∈ band2 ++ band5, ∃ p ∈ cfg.txPower, x.1 = p.channel) ∧
        (scanType = .SCAN_2040_BSS_COEXIST → band2 ≠ [] ∨ band5 = []) := by
  have hchannels := listedChannels_BuildChannelList h2 h5 s
  have hlow := (Config.band2GHZ_spec h2).1
  have hhigh := (Config.band5GHZ_spec h5).1
  have hzero : scanType.visits 0 = true := decide_eq_true (Or.inr (Nat.zero_le _))
  constructor
  · intro h
    have hpower : ∀ x ∈ band2 ++ band5, ∃ p ∈ cfg.txPower, x.1 = p.channel := by
      intro x hx
      by_contra hno
      refine h.nonzero (List.mem_filter.2 ⟨?_, hzero⟩)
      rw [hchannels]
      exact List.mem_map.2 ⟨x, hx, channel_copyPower_of_not_mem hno x.2 .zero⟩
    refine ⟨hpower, fun hcoex => ?_⟩
    by_contra hno
    push Not at hno
    obtain ⟨rfl, hne⟩ := hno
    obtain ⟨x, rest, rfl⟩ := List.exists_cons_of_ne_nil hne
    have hhead := h.head (powered cfg.txPower x).channel (by rw [hchannels]; rfl)
    have hx := hhigh x List.mem_cons_self
    unfold powered at hhead
    rw [channel_copyPower_of_mem (hpower x (List.mem_append_right _ List.mem_cons_self)), hcoex] at hhead
    have := of_decide_eq_true hhead
    simp only [ne_eq, not_true_eq_false, false_or] at this
    omega
  · rintro ⟨hpower, hcoex⟩
    have hlist : (BuildChannelList cfg s).listedChannels = (band2 ++ band5).map Prod.fst := by
      rw [hchannels]
      exact List.map_congr_left fun x hx => channel_copyPower_of_mem (hpower x hx) _ _
    refine ⟨fun h0 => ?_, ?_, fun c hc => ?_, fun hnum => ?_⟩
    · unfold Channels.toVisit at h0
      rw [hlist] at h0
      obtain ⟨x, hx, hx0⟩ := List.mem_map.1 (List.mem_filter.1 h0).1
      rcases List.mem_append.1 hx with hx | hx
      · have := hlow x hx
        omega
      · have := hhigh x hx
        omega
    · unfold Channels.toVisit
      rw [hlist]
      exact (nodup_bands h2 h5).filter _
    · rw [hlist] at hc
      by_cases hm : scanType = .SCAN_2040_BSS_COEXIST
      · rcases hcoex hm with hne | rfl
        · obtain ⟨x, rest, rfl⟩ := List.exists_cons_of_ne_nil hne
          obtain rfl : x.1 = c := Option.some.inj hc
          exact decide_eq_true (Or.inr (hlow x List.mem_cons_self).2.1)
        · rw [List.append_nil] at hc
          obtain ⟨x, hx, rfl⟩ := List.mem_map.1 (List.mem_of_mem_head? hc)
          exact decide_eq_true (Or.inr (hlow x hx).2.1)
      · exact decide_eq_true (Or.inl hm)
    · have hlength := congrArg List.length hlist
      rw [listedChannels_eq, hnum, List.length_map, List.length_map, List.length_append] at hlength
      have hlength : 0 = band2.length + band5.length := hlength
      obtain rfl := List.eq_nil_of_length_eq_zero (show band2.length = 0 by omega)
      obtain rfl := List.eq_nil_of_length_eq_zero (show band5.length = 0 by omega)
      unfold FirstChannel BuildChannelList
      rw [h2, h5]
      exact congrArg ChannelTxPower.channel (holds_replicate MAX_NUM_OF_CHANNELS 0)

/-! ### The lists of `BuildChannelListEx` -/

theorem channel_fillFrom {domain n : ℕ} (xs : List Slot) {i : ℕ} {l : List ChannelTxPower}
    (hlen : i + xs.length ≤ l.length) :
    (fillFrom domain n xs i l).length = l.length ∧
      (∀ j, j < i ∨ i + xs.length ≤ j → entryAt (fillFrom domain n xs i l) j = entryAt l j) ∧
      ∀ k x, xs[k]? = some x → (entryAt (fillFrom domain n xs i l) (i + k)).channel = x.channel := by
  induction xs generalizing i l with
  | nil => exact ⟨rfl, fun _ _ => rfl, fun k x hk => absurd hk (by simp)⟩
  | cons x xs ih =>
    rw [List.length_cons] at hlen
    have hslot := fillSlot_eq domain n x (show i < l.length by omega)
    have hset := fun e j => @entryAt_set l i (by omega) e j
    obtain ⟨hlength, hother, hhere⟩ := @ih (i + 1) (fillSlot domain n i x l)
      (by rw [hslot, List.length_set]; omega)
    rw [fillFrom_cons]
    refine ⟨hlength.trans (by rw [hslot, List.length_set]), fun j hj => ?_, fun k y hk => ?_⟩
    · rw [List.length_cons] at hj
      rw [hother j (by omega), hslot, hset, if_neg (by omega)]
    · rcases k with _ | k
      · obtain rfl := Option.some.inj hk
        refine (congrArg ChannelTxPower.channel (hother i (Or.inl (Nat.lt_succ_self i)))).trans ?_
        rw [hslot, hset, if_pos rfl]
        split_ifs <;> rfl
      · have := hhere k y hk
        rwa [Nat.add_assoc, Nat.add_comm 1 k] at this

theorem channel_createLoop {dfsType : RdRegion} (pChDesp : List ChDesp) {i n : ℕ} {l : List ChannelTxPower}
    (hlen : i + (slots cfg pChDesp).length ≤ l.length) :
    (∀ j, j < i ∨ i + (slots cfg pChDesp).length ≤ j →
        entryAt (createLoop cfg dfsType pChDesp i l n).1 j = entryAt l j) ∧
      (∀ k x, (slots cfg pChDesp)[k]? = some x →
        (entryAt (createLoop cfg dfsType pChDesp i l n).1 (i + k)).channel = x.channel) ∧
      (createLoop cfg dfsType pChDesp i l n).2.1 =
        if ∃ d ∈ pChDesp, usesDesp cfg d = true then i + (slots cfg pChDesp).length else n := by
  induction pChDesp generalizing i n l with
  | nil => exact ⟨fun _ _ => rfl, fun k x hk => absurd hk (by simp [slots]), by rw [if_neg (by simp)]; rfl⟩
  | cons d pChDesp ih =>
    by_cases hd : usesDesp cfg d = true
    · have huses : ∃ d' ∈ d :: pChDesp, usesDesp cfg d' = true := ⟨d, List.mem_cons_self, hd⟩
      rw [slots_cons_of_uses hd] at hlen ⊢
      rw [List.length_append] at hlen ⊢
      rw [createLoop_cons_of_uses hd, if_pos huses]
      dsimp only
      generalize slotsFrom cfg d d.increment d.numOfCh 0 = xs at hlen ⊢
      obtain ⟨hlength, hother, hhere⟩ := @channel_fillFrom (cfg.domain dfsType) n xs i l (by omega)
      obtain ⟨hother', hhere', hnum⟩ := @ih (i + xs.length) (i + xs.length) (fillFrom (cfg.domain dfsType) n xs i l)
        (by rw [hlength]; omega)
      refine ⟨fun j hj => ?_, fun k x hk => ?_, hnum.trans ?_⟩
      · rw [hother' j (by omega), hother j (by omega)]
      · rcases Nat.lt_or_ge k xs.length with hlt | hge
        · rw [List.getElem?_append_left hlt] at hk
          rw [hother' (i + k) (by omega)]
          exact hhere k x hk
        · rw [List.getElem?_append_right hge] at hk
          have := hhere' (k - xs.length) x hk
          rwa [show i + xs.length + (k - xs.length) = i + k by omega] at this
      · split_ifs with hany
        · omega
        · rw [slots_eq_nil hany, List.length_nil]
          omega
    · have hany : (∃ d' ∈ d :: pChDesp, usesDesp cfg d' = true) ↔ ∃ d' ∈ pChDesp, usesDesp cfg d' = true := by
        simp [hd]
      rw [slots_cons_of_not_uses hd] at hlen ⊢
      rw [createLoop_cons_of_not_uses hd]
      simp only [hany]
      exact ih hlen

theorem firstChannel_pos : ∀ r ∈ chRegion, ∀ d ∈ r.pChDesp, 0 < d.firstChannel := by
  decide

theorem Cut.bounds {d d' : ChDesp} (h : Cut d d') : d'.firstChannel = d.firstChannel ∧ d'.numOfCh ≤ d.numOfCh := by
  rcases h with rfl | ⟨-, -, rfl⟩
  · exact ⟨rfl, Nat.le_refl _⟩
  · exact ⟨rfl, Nat.sub_le _ _⟩

theorem sum_of_cut {ds ds' : List ChDesp} (h : List.Forall₂ Cut ds ds') :
    (ds'.map ChDesp.numOfCh).sum ≤ (ds.map ChDesp.numOfCh).sum := by
  induction h with
  | nil => exact Nat.le_refl _
  | cons hd _ ih =>
    have := hd.bounds.2
    rw [List.map_cons, List.map_cons, List.sum_cons, List.sum_cons]
    omega

theorem CutRegion.bounds {r r' : ChRegion} (hr : r ∈ chRegion) (h : CutRegion r r') :
    (∀ d ∈ r'.pChDesp, 0 < d.firstChannel ∧ (d.firstChannel ≤ 14 → d.firstChannel + d.numOfCh ≤ 15)) ∧
      (r'.pChDesp.map ChDesp.numOfCh).sum ≤ 37 := by
  have htidy := tidy_chRegion r hr
  refine ⟨fun d' hd' => ?_, Nat.le_trans (sum_of_cut h.pChDesp) htidy.total⟩
  obtain ⟨j, hj, rfl⟩ := List.getElem_of_mem hd'
  have hj' : j < r.pChDesp.length := h.pChDesp.length_eq ▸ hj
  have hcut := List.Forall₂.get h.pChDesp hj' hj
  have hbounds := hcut.bounds
  have hmem : r.pChDesp.get ⟨j, hj'⟩ ∈ r.pChDesp := List.get_mem _ _
  have hpos := firstChannel_pos r hr _ hmem
  have hfirst := htidy.first _ hmem
  simp only [List.get_eq_getElem] at hbounds hpos hfirst
  refine ⟨by omega, fun hlow => ?_⟩
  have := hfirst (by omega)
  omega

/-- **A list of `BuildChannelListEx` is clean** when the channels with a power come once each, as far as they are
visited; for a coexistence scan they begin with one of the 2.4 GHz band; and when there are none, the list was empty. -/
theorem clean_BuildChannelListEx_iff {s : Channels} (hs : Sound s) {k : ℕ} {r : ChRegion}
    (hk : GetChRegion s.chRegion cfg.countryCode = some k) (hr : s.chRegion[k]? = some r)
    (huses : ∃ d ∈ r.pChDesp, usesDesp cfg d = true) :
    Clean (BuildChannelListEx cfg s) scanType ↔
      ((cfg.channels r.pChDesp).filter scanType.visits).Nodup ∧
        (∀ c, (cfg.channels r.pChDesp).head? = some c → scanType.visits c = true) ∧
        (cfg.channels r.pChDesp = [] → FirstChannel s = 0) := by
  obtain ⟨hlt, -⟩ := List.getElem?_eq_some_iff.1 hr
  have horig : k < chRegion.length := hs.table.length_eq ▸ hlt
  obtain ⟨r', hr', hcut⟩ := hs.table.get (List.getElem?_eq_getElem horig)
  obtain rfl : r = r' := Option.some.inj (hr.symm.trans hr')
  obtain ⟨hbounds, htotal⟩ := hcut.bounds (List.getElem_mem horig)
  have hchannels := @channel_slots cfg r.pChDesp fun d hd => (hbounds d hd).2
  have hlen := @length_slots_le cfg r.pChDesp
  have hmax : MAX_NUM_OF_CHANNELS = 59 := rfl
  obtain ⟨hother, hhere, hnum⟩ := @channel_createLoop cfg r.dfsType r.pChDesp 0 s.channelListNum s.channelList
    (by rw [hs.length]; omega)
  rw [if_pos huses, Nat.zero_add] at hnum
  have hbuild : BuildChannelListEx cfg s = { s with
      channelList := (createLoop cfg r.dfsType r.pChDesp 0 s.channelList s.channelListNum).1
      channelListNum := (createLoop cfg r.dfsType r.pChDesp 0 s.channelList s.channelListNum).2.1
      chRegion := s.chRegion.set k { r with
        pChDesp := (createLoop cfg r.dfsType r.pChDesp 0 s.channelList s.channelListNum).2.2 } } := by
    unfold BuildChannelListEx
    rw [hk]
    dsimp only
    rw [hr]
  have hlist : (BuildChannelListEx cfg s).listedChannels = cfg.channels r.pChDesp := by
    rw [listedChannels_eq, hbuild, ← hchannels, hnum]
    refine List.ext_getElem? fun j => ?_
    rw [List.getElem?_map, List.getElem?_map]
    rcases Nat.lt_or_ge j (slots cfg r.pChDesp).length with hj | hj
    · rw [List.getElem?_range' hj, List.getElem?_eq_getElem hj, Option.map_some, Option.map_some, Nat.zero_add,
        Nat.one_mul]
      have hchannel := hhere j _ (List.getElem?_eq_getElem hj)
      rw [Nat.zero_add] at hchannel
      exact congrArg some hchannel
    · rw [List.getElem?_eq_none (by rw [List.length_range']; exact hj), List.getElem?_eq_none hj]
      rfl
  have hempty : (BuildChannelListEx cfg s).channelListNum = 0 ↔ cfg.channels r.pChDesp = [] := by
    rw [hbuild, hnum, ← hchannels, List.map_eq_nil_iff, List.length_eq_zero_iff]
  have hfirst : cfg.channels r.pChDesp = [] → FirstChannel (BuildChannelListEx cfg s) = FirstChannel s := by
    intro hnil
    rw [← hchannels, List.map_eq_nil_iff] at hnil
    unfold FirstChannel
    rw [hbuild]
    exact congrArg ChannelTxPower.channel (hother 0 (Or.inr (by rw [hnil]; exact Nat.le_refl 0)))
  have hzero : 0 ∉ cfg.channels r.pChDesp := by
    rw [← hchannels]
    intro h0
    obtain ⟨x, hx, hx0⟩ := List.mem_map.1 h0
    unfold slots at hx
    obtain ⟨d, hd, hx⟩ := List.mem_flatMap.1 hx
    obtain ⟨j, -, hc, -⟩ := channel_of_mem_slotsFrom hx
    have := (hbounds d (List.mem_of_mem_filter hd)).1
    omega
  constructor
  · intro h
    refine ⟨?_, fun c hc => h.head c (hlist ▸ hc), fun hnil => (hfirst hnil).symm.trans (h.empty (hempty.2 hnil))⟩
    have := h.once
    unfold Channels.toVisit at this
    rwa [hlist] at this
  · rintro ⟨honce, hhead, hnone⟩
    refine ⟨?_, ?_, fun c hc => hhead c (hlist ▸ hc), fun h0 => (hfirst (hempty.1 h0)).trans (hnone (hempty.1 h0))⟩
    · unfold Channels.toVisit
      rw [hlist]
      exact fun h0 => hzero (List.mem_filter.1 h0).1
    · unfold Channels.toVisit
      rwa [hlist]

/-! ### The scans of the lists -/

def ScansAll (s : Channels) (scanType : ScanMode) : Prop :=
  ∀ a : ScanState, a.Full → a.scanType = scanType → a.channel = FirstChannel s → Visits s a (s.toVisit scanType)

theorem scansAll_iff_clean (hmode : scanType.isCisco = false) : ScansAll s scanType ↔ Clean s scanType := by
  have hfull : (⟨FirstChannel s, scanType, false, false⟩ : ScanState).Full := ⟨hmode, fun h => Bool.false_ne_true h.1⟩
  constructor
  · exact fun h => (visits_toVisit_iff hfull rfl).1 (h _ hfull rfl rfl)
  · rintro h a ha rfl hstart
    exact (visits_toVisit_iff ha hstart).2 h

/-- **A scan visits every channel once**, exactly for the lists that are clean; and which lists of the builders these
are, after whatever was built before. -/
theorem scansAll_iff (hmode : scanType.isCisco = false) : (∀ s, ScansAll s scanType ↔ Clean s scanType) ∧
    (∀ (history : List Config) (cfg : Config) (band2 band5 : List (ℕ × BitVec 8)),
      cfg.band2GHZ = some band2 → cfg.band5GHZ = some band5 →
        (ScansAll (BuildChannelList cfg (afterBuilds BuildChannelList history)) scanType ↔
          (∀ x ∈ band2 ++ band5, ∃ p ∈ cfg.txPower, x.1 = p.channel) ∧
            (scanType = .SCAN_2040_BSS_COEXIST → band2 ≠ [] ∨ band5 = []))) ∧
    ∀ (history : List Config) (cfg : Config) (k : ℕ) (r : ChRegion),
      GetChRegion (afterBuilds BuildChannelListEx history).chRegion cfg.countryCode = some k →
        (afterBuilds BuildChannelListEx history).chRegion[k]? = some r → (∃ d ∈ r.pChDesp, usesDesp cfg d = true) →
          (ScansAll (BuildChannelListEx cfg (afterBuilds BuildChannelListEx history)) scanType ↔
            ((cfg.channels r.pChDesp).filter scanType.visits).Nodup ∧
              (∀ c, (cfg.channels r.pChDesp).head? = some c → scanType.visits c = true) ∧
              (cfg.channels r.pChDesp = [] → FirstChannel (afterBuilds BuildChannelListEx history) = 0)) :=
  ⟨fun _ => scansAll_iff_clean hmode,
    fun _ _ _ _ h2 h5 => (scansAll_iff_clean hmode).trans (clean_BuildChannelList_iff h2 h5 _),
    fun history _ _ _ hk hr huses =>
      (scansAll_iff_clean hmode).trans (clean_BuildChannelListEx_iff (sound_afterBuilds history) hk hr huses)⟩

theorem scansAll_iff_active :
    ScanMode.SCAN_ACTIVE.isCisco = false ∧ ∀ s, ScansAll s .SCAN_ACTIVE ↔ Clean s .SCAN_ACTIVE :=
  ⟨rfl, (scansAll_iff rfl).1⟩

def kpChannels : Config := ⟨WMODE_A, 0, 0, ('K', 'P'), .BOTH, .MAX_RD_REGION, everyPower⟩

set_option maxRecDepth 1000 in
/-- Its scan goes on from channel 48 to channel 36 again, and never ends. -/
theorem not_scansAll_kpChannels : ¬∀ (cfg : Config) (history : List Config),
    ScansAll (BuildChannelList cfg (afterBuilds BuildChannelList history)) .SCAN_ACTIVE ∧
      ScansAll (BuildChannelListEx cfg (afterBuilds BuildChannelListEx history)) .SCAN_ACTIVE := by
  intro h
  have hclean := (scansAll_iff_clean rfl).1 (h kpChannels []).2
  have htwice : ¬((BuildChannelListEx kpChannels (afterBuilds BuildChannelListEx [])).toVisit .SCAN_ACTIVE).Nodup := by
    decide
  exact htwice hclean.once

end Mt7610u.Channel
