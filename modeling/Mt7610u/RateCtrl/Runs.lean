import Mt7610u.RateCtrl.Links

/-! # Runs of the rate adaptation

The entry points of both algorithms, and what one predicate `G` on the indices of a table needs for every run
to keep it: of the current index, of the last one while a change is being checked, and of every index that
`MlmeNewTxRate` has been called with. -/

namespace Mt7610u.RateCtrl

open RateTable Lib.Outcome

/-! ### Entry points -/

/-- `MlmeDynamicTxRateSwitching`, for one entry. -/
def mlmeDynamicTxRateSwitching (pAd : Adapter) (s : Sample) (e : RaEntry) : Except Fault RaEntry :=
  if pAd.autoTxRateSwitch then
    match mlmeSelectTxRateTable pAd e with
    | none => .error .noTable
    | some t =>
      let e := { e with pTable := some t }
      if t.adapt then groupTick pAd s t e else legacyTick pAd s t e
  else .ok e

/-- `StaQuickResponeForRateUpExec`, for one entry. -/
def staQuickResponeForRateUpExec (pAd : Adapter) (s : Sample) (e : RaEntry) : Except Fault RaEntry :=
  let e := { e with quickTimerRunning := false }
  if pAd.autoTxRateSwitch ∧ e.lastSecTxRateChangeAction ≠ .noChange then
    match mlmeSelectTxRateTable pAd e with
    | none => .error .noTable
    | some t =>
      let e := { e with pTable := some t }
      if t.adapt then groupQuick pAd s t e else legacyQuick pAd s t e
  else .ok e

def setRateAlgProc (raAlg : ℕ) (e : RaEntry) : RaEntry :=
  if raAlg < rateAlgMaxNum then { e with rateAlg := raAlg } else e

/-- What `StaAddMacTableEntry` does to the entry: the peer is entered, the rate adaptation initialised and,
with automatic rates, a table chosen with its initial rate. -/
def staAddMacTableEntry (pAd : Adapter) (peer : Peer) (phy : HtPhyMode) (e : RaEntry) : Except Fault RaEntry :=
  let e := mlmeRAInit pAd { e with peer := peer, htPhyMode := phy }
  if pAd.autoTxRateSwitch then
    match mlmeSelectTxRateTable pAd e with
    | none => .error .noTable
    | some t => .ok { e with pTable := some t, currTxRateIndex := t.initIndex }
  else .ok e

/-- What `LinkUp` does to the entry: the table is chosen again, the index stays. -/
def linkUp (pAd : Adapter) (phy maxPhy : HtPhyMode) (e : RaEntry) : Except Fault RaEntry :=
  match mlmeSelectTxRateTable pAd e with
  | none => .error .noTable
  | some t =>
    .ok { e with pTable := some t, htPhyMode := phy, peer := { e.peer with maxHTPhyMode := maxPhy } }

/-! ### What a step keeps -/

structure Seen where
  support : SupportMcs
  peer : Peer
  pTable : Option RateTable
  currTxRateIndex : ℕ
  lastRateIdx : ℕ
  lastSecTxRateChangeAction : RateChange
  calls : List Call

def RaEntry.seen (e : RaEntry) : Seen :=
  ⟨e.support, e.peer, e.pTable, e.currTxRateIndex, e.lastRateIdx, e.lastSecTxRateChangeAction, e.calls⟩

variable {G : SupportMcs → RateTable → ℕ → Prop} {r : SupportMcs} {p : Peer} {t : RateTable}
  {pAd : Adapter} {e e' : RaEntry}

/-- In the middle of a step with the table `t`: the last index may be that of an earlier change. -/
structure Moving (G : SupportMcs → RateTable → ℕ → Prop) (r : SupportMcs) (p : Peer) (t : RateTable)
    (e : RaEntry) : Prop where
  support : e.support = r
  peer : e.peer = p
  table : e.pTable = some t
  curr : G r t e.currTxRateIndex
  calls : ∀ c ∈ e.calls, G c.support c.table c.idx

/-- Between two steps, for an entry with the table `t`. -/
structure At (G : SupportMcs → RateTable → ℕ → Prop) (r : SupportMcs) (p : Peer) (t : RateTable)
    (e : RaEntry) : Prop extends Moving G r p t e where
  last : e.lastSecTxRateChangeAction ≠ .noChange → G r t e.lastRateIdx

structure Inv (G : SupportMcs → RateTable → ℕ → Prop) (e : RaEntry) : Prop where
  curr : ∀ t, e.pTable = some t → G e.support t e.currTxRateIndex
  last : e.lastSecTxRateChangeAction ≠ .noChange → ∀ t, e.pTable = some t → G e.support t e.lastRateIdx
  calls : ∀ c ∈ e.calls, G c.support c.table c.idx

theorem At.inv (h : At G r p t e) : Inv G e where
  curr := by
    intro t' ht'
    obtain rfl : t = t' := Option.some.inj (h.table.symm.trans ht')
    exact h.support ▸ h.curr
  last := by
    intro hne t' ht'
    obtain rfl : t = t' := Option.some.inj (h.table.symm.trans ht')
    exact h.support ▸ h.last hne
  calls := h.calls

theorem Moving.of_seen (h : Moving G r p t e) (he : e'.seen = e.seen) : Moving G r p t e' := by
  simp only [RaEntry.seen, Seen.mk.injEq] at he
  obtain ⟨hs, hp, ht, hc, -, -, hcalls⟩ := he
  exact ⟨hs ▸ h.support, hp ▸ h.peer, ht ▸ h.table, hc ▸ h.curr, hcalls ▸ h.calls⟩

theorem At.of_seen (h : At G r p t e) (he : e'.seen = e.seen) : At G r p t e' := by
  refine ⟨h.toMoving.of_seen he, ?_⟩
  simp only [RaEntry.seen, Seen.mk.injEq] at he
  obtain ⟨-, -, -, -, hl, ha, -⟩ := he
  rw [hl, ha]
  exact h.last

theorem Moving.moveTo (h : Moving G r p t e) {idx : ℕ} (hidx : G r t idx) :
    Moving G r p t { e with currTxRateIndex := idx } :=
  ⟨h.support, h.peer, h.table, hidx, h.calls⟩

theorem At.moveTo (h : At G r p t e) {idx : ℕ} (hidx : G r t idx) : At G r p t { e with currTxRateIndex := idx } :=
  ⟨h.toMoving.moveTo hidx, h.last⟩

theorem Moving.at (h : Moving G r p t e) (hno : e.lastSecTxRateChangeAction = .noChange) : At G r p t e :=
  ⟨h, fun hne => absurd hno hne⟩

section shared

variable (hlt : ∀ i, G r t i → i < t.size)
include hlt

theorem mlmeNewTxRate_yields (h : At G r p t e) : Yields (mlmeNewTxRate pAd t e) (At G r p t) := by
  refine (entry_yields (hlt _ h.curr)).bind fun row _ => yields_pure ?_
  have hset : (mlmeSetTxRate pAd e row).seen = e.seen := by
    unfold mlmeSetTxRate
    extract_lets
    split <;> rfl
  have h' := h.of_seen hset
  refine ⟨⟨h'.support, h'.peer, h'.table, h'.curr, ?_⟩, h'.last⟩
  intro c hc
  rcases List.mem_cons.1 hc with rfl | hc
  · change G (mlmeSetTxRate pAd e row).support t (mlmeSetTxRate pAd e row).currTxRateIndex
    rw [h'.support]
    exact h'.curr
  · exact h'.calls c hc

end shared

/-! ### The legacy algorithm -/

def tickCount (pAd : Adapter) (s : Sample) (e : RaEntry) : TxCount := s.count (pAd.macTabSize = 1 ∨ e.peer.isDls)

def Trains (pAd : Adapter) (s : Sample) (e : RaEntry) : Prop :=
  15 < (tickCount pAd s e).total ∧ e.fLastSecAccordingRSSI = false

/-- What the step can choose from a legacy table has `G`. -/
structure LegacyClosed (G : SupportMcs → RateTable → ℕ → Prop) (pAd : Adapter) (s : Sample) (t : RateTable)
    (e : RaEntry) : Prop where
  lt : ∀ i, G e.support t i → i < t.size
  initIndex : G e.support t t.initIndex
  searched : Trains pAd s e → ∀ row ∈ t.rows[e.currTxRateIndex]?, ∀ i,
    searchHit t (searchedArray e.support row) i = true → G e.support t i
  rssi : (tickCount pAd s e).total ≤ 15 → ∀ rssi,
    G e.support t (mlmeSelectTxRate e.support t (mlmeGetSupportedMcs t) rssi (legacyRssiOffset pAd))

theorem firstFrom_hit {q : ℕ → Bool} : ∀ {idx n i : ℕ}, firstFrom q idx n = some i → q i = true
  | idx, n + 1, i, h => by
    unfold firstFrom at h
    split at h
    · next hq =>
      obtain rfl : idx = i := Option.some.inj h
      exact hq
    · exact firstFrom_hit h

theorem lastBelow_hit {q : ℕ → Bool} : ∀ {n i : ℕ}, lastBelow q n = some i → q i = true
  | n + 1, i, h => by
    unfold lastBelow at h
    split at h
    · next hq =>
      obtain rfl : n = i := Option.some.inj h
      exact hq
    · exact lastBelow_hit h

theorem searchRates_closed (array : ℕ → Bool) {curr : ℕ} (hcurr : G r t curr)
    (hhit : ∀ i, searchHit t array i = true → G r t i) :
    G r t (searchRates t array curr).1 ∧ G r t (searchRates t array curr).2 := by
  have hget : ∀ o : Option ℕ, (∀ i, o = some i → G r t i) → G r t (o.getD curr) := by
    intro o ho
    cases o with
    | none => exact hcurr
    | some i => exact ho i rfl
  exact ⟨hget _ fun i hi => hhit i (firstFrom_hit hi), hget _ fun i hi => hhit i (lastBelow_hit hi)⟩

section legacy

variable (hlt : ∀ i, G r t i → i < t.size) {curr up down trainUp trainDown ratio : ℕ}
include hlt

theorem oldTrain_yields (h : Moving G r p t e) (hcurr : G r t curr) (hup : G r t up) (hdown : G r t down) :
    Yields (oldTrain t e curr up down trainUp trainDown ratio) (Moving G r p t) := by
  unfold oldTrain
  refine Yields.ite (fun _ => ?_) fun _ => Yields.ite (fun _ => ?_) fun _ => yields_pure h
  · refine (access_yields (hlt _ hcurr)).bind fun _ _ => yields_pure ?_
    have h' : Moving G r p t (mlmeSetTxQuality e curr drsTxQualityWorstBound) := h.of_seen rfl
    split
    · exact ⟨h'.support, h'.peer, h'.table, hdown, h'.calls⟩
    · exact h'
  · refine (access_yields (hlt _ hcurr)).bind fun _ _ => ?_
    refine (access_yields (hlt _ hup)).bind fun _ _ => yields_pure ?_
    have h' : Moving G r p t (decRates curr up e) := by
      refine h.of_seen ?_
      unfold decRates
      extract_lets
      split <;> rfl
    split
    · exact ⟨h'.support, h'.peer, h'.table, hup, h'.calls⟩
    · exact h'

theorem oldChange_yields (h : Moving G r p t e) (hcurr : G r t curr) :
    Yields (oldChange pAd t e curr) (At G r p t) := by
  unfold oldChange
  refine Yields.ite (fun _ => ?_) fun hno => yields_pure (h.at (not_not.1 hno))
  extract_lets e₁
  have h₁ : At G r p t e₁ := ⟨⟨h.support, h.peer, h.table, h.curr, h.calls⟩, fun _ => hcurr⟩
  refine (access_yields (hlt _ h.curr)).bind fun _ _ => mlmeNewTxRate_yields hlt (h₁.of_seen ?_)
  split
  · split <;> rfl
  · rfl

end legacy

theorem legacyTick_yields {s : Sample} (hcl : LegacyClosed G pAd s t e) (h : At G e.support e.peer t e) :
    Yields (legacyTick pAd s t e) (At G e.support e.peer t) := by
  have hcurr := hcl.lt _ h.curr
  have hclamp : clampedIdx t e = e.currTxRateIndex := if_neg (by omega)
  unfold legacyTick
  extract_lets alone c rssi curr e₁
  have hc : curr = e.currTxRateIndex := hclamp
  have h₁ : At G e.support e.peer t e₁ := h.of_seen rfl
  rw [hc]
  refine (entry_yields hcurr).bind fun row hrow => ?_
  refine Yields.ite (fun _ => ?_) fun _ => Yields.ite (fun hfew => ?_) fun hmany =>
    Yields.ite (fun _ => ?_) fun hlast => ?_
  · exact mlmeNewTxRate_yields hcl.lt (h₁.moveTo hcl.initIndex)
  · exact (mlmeNewTxRate_yields hcl.lt (h₁.moveTo (hcl.rssi hfew rssi))).bind fun e₂ h₂ =>
      yields_pure (h₂.of_seen rfl)
  · exact yields_pure ⟨⟨h₁.support, h₁.peer, h₁.table, h₁.curr, h₁.calls⟩, fun hne => absurd rfl hne⟩
  · have htrains : Trains pAd s e := ⟨not_le.1 hmany, Bool.eq_false_iff.2 hlast⟩
    have hnext := searchRates_closed (searchedArray e.support row) h.curr fun i hi =>
      hcl.searched htrains row hrow i hi
    refine (access_yields hcurr).bind fun _ _ => ?_
    have h₂ : Moving G e.support e.peer t { setPER e₁ e.currTxRateIndex c.errorRatio with
        lastSecTxRateChangeAction := .noChange } :=
      ⟨h₁.support, h₁.peer, h₁.table, h₁.curr, h₁.calls⟩
    exact (oldTrain_yields hcl.lt h₂ h.curr hnext.1 hnext.2).bind fun e₃ h₃ => oldChange_yields hcl.lt h₃ h.curr

theorem At.restore (h : At G r p t e) (hact : e.lastSecTxRateChangeAction ≠ .noChange) :
    At G r p t (mlmeRestoreLastRate e) :=
  h.moveTo (h.last hact)

theorem legacyCompare_at {c : TxCount} {trainDown curr : ℕ} (h : At G r p t e) :
    At G r p t (legacyCompare pAd c trainDown curr e) := by
  unfold legacyCompare
  extract_lets scaled e₁
  have h₁ : At G r p t e₁ := by
    refine h.of_seen ?_
    simp only [e₁]
    split <;> rfl
  split
  · next hact =>
    split
    · exact h₁.restore (by rw [hact]; decide)
    · exact h₁
  · next hact =>
    split
    · exact h₁
    · split
      · exact h₁.restore (by rw [hact]; decide)
      · exact h₁
  · exact h₁

section quick

variable (hlt : ∀ i, G r t i → i < t.size)
include hlt

theorem legacyRestored_yields {curr : ℕ} (h : At G r p t e) :
    Yields (legacyRestored pAd t curr e) (At G r p t) := by
  unfold legacyRestored
  refine Yields.ite (fun _ => ?_) fun _ => yields_pure h
  refine (access_yields (hlt _ h.curr)).bind fun _ _ => mlmeNewTxRate_yields hlt (h.of_seen ?_)
  split <;> rfl

theorem legacyQuick_yields {s : Sample} (h : At G r p t e)
    (hact : e.lastSecTxRateChangeAction ≠ .noChange) : Yields (legacyQuick pAd s t e) (At G r p t) := by
  unfold legacyQuick
  extract_lets curr c e₁ e₂
  refine (entry_yields (hlt _ h.curr)).bind fun row _ => ?_
  extract_lets train
  refine (access_yields (hlt _ h.curr)).bind fun _ _ => Yields.ite (fun _ => ?_) fun _ => ?_
  · have h₂ : e₂.seen = e.seen := by
      simp only [e₂]
      split <;> rfl
    refine mlmeNewTxRate_yields hlt ((h.of_seen h₂).restore ?_)
    rw [show e₂.lastSecTxRateChangeAction = e.lastSecTxRateChangeAction from
      congrArg Seen.lastSecTxRateChangeAction h₂]
    exact hact
  · exact legacyRestored_yields hlt (legacyCompare_at (h.of_seen rfl))

end quick

/-! ### The group algorithm -/

/-- The link `i` up has `P`, and if it is MCS 32 and skipped, so has the next. -/
def UpOk (P : ℕ → Prop) (pAd : Adapter) (p : Peer) (t : RateTable) (i : ℕ) : Prop :=
  P i ∧ (skipsMcs32 pAd p = true → ∀ next ∈ t.rows[i]?, next.currMCS = 32 → P next.upMcs1)

/-- What the step can choose from a group table has `G`. -/
structure GroupClosed (G : SupportMcs → RateTable → ℕ → Prop) (pAd : Adapter) (s : Sample) (t : RateTable)
    (e : RaEntry) : Prop where
  lt : ∀ i, G e.support t i → i < t.size
  fits : OneStreamFits pAd e.peer t
  up : Trains pAd s e → ∀ row ∈ t.rows[e.currTxRateIndex]?, ∀ group ≤ e.mcsGroup,
    ∀ i ∈ groupLinks pAd e.peer t row group, UpOk (G e.support t) pAd e.peer t i
  down : Trains pAd s e → ∀ row ∈ t.rows[e.currTxRateIndex]?, ∀ i ∈ downChain pAd t e.peer t.size row.downMcs,
    ∀ next ∈ t.rows[i]?, validDown pAd e.peer next = true → G e.support t i
  rssi : (tickCount pAd s e).total ≤ 15 → ∀ rssi, G e.support t
    (mlmeSelectTxRateAdapt pAd e.peer t (mlmeGetSupportedMcsAdapt pAd t) rssi (groupRssiOffset pAd)).1

section group

variable {row : RateRow}

def SameButQuality (e e' : RaEntry) : Prop :=
  ∃ group quality, e' = { e with mcsGroup := group, txQuality := quality }

theorem SameButQuality.seen (h : SameButQuality e e') : e'.seen = e.seen := by
  obtain ⟨group, quality, rfl⟩ := h
  rfl

theorem SameButQuality.fLast (h : SameButQuality e e') : e'.fLastSecAccordingRSSI = e.fLastSecAccordingRSSI := by
  obtain ⟨group, quality, rfl⟩ := h
  rfl

theorem SameButQuality.trans {e'' : RaEntry} (h : SameButQuality e e') (h' : SameButQuality e' e'') :
    SameButQuality e e'' := by
  obtain ⟨group, quality, rfl⟩ := h
  obtain ⟨group', quality', rfl⟩ := h'
  exact ⟨group', quality', rfl⟩

theorem markShortGI_same (next : RateRow) (up : ℕ) (e : RaEntry) : SameButQuality e (markShortGI next up e) := by
  unfold markShortGI
  split
  · exact ⟨e.mcsGroup, _, rfl⟩
  · exact ⟨e.mcsGroup, e.txQuality, rfl⟩

section up

variable {P : ℕ → Prop} (hlt : ∀ i, P i → i < t.size)
include hlt

theorem upTurn_yields (hp : e.peer = p) (hin : ∀ i ∈ groupLinks pAd p t row e.mcsGroup, UpOk P pAd p t i) :
    Yields (upTurn pAd t row e) fun out => P out.1 ∧ SameButQuality e out.2.1 := by
  subst hp
  refine (groupLink_yields fun i hi => hlt i (hin i hi).1).bind fun up hlink => ?_
  obtain ⟨hup, hskip⟩ := hin up hlink
  refine (entry_yields (hlt _ hup)).bind fun next hnext => Yields.ite (fun hs => ?_) fun _ => ?_
  · exact yields_pure ⟨hskip hs.2 next hnext hs.1, 1, e.txQuality, rfl⟩
  · refine (access_yields (hlt _ hup)).bind fun _ _ => yields_pure ?_
    have hsame := markShortGI_same next up e
    split
    · exact ⟨hup, hsame.trans ⟨0, _, rfl⟩⟩
    · exact ⟨hup, hsame⟩

theorem selectUpFrom_yields : ∀ (group : ℕ) (e : RaEntry), e.peer = p → e.mcsGroup = group →
    (∀ g ≤ group, ∀ i ∈ groupLinks pAd p t row g, UpOk P pAd p t i) →
      Yields (selectUpFrom pAd t row group e) fun out => P out.1 ∧ SameButQuality e out.2
  | 0, e, hp, hg, hin =>
    (upTurn_yields hlt hp (hin _ hg.le)).bind fun _ h => yields_pure h
  | group + 1, e, hp, hg, hin => by
    refine (upTurn_yields hlt hp (hin _ hg.le)).bind fun out h =>
      Yields.ite (fun _ => ?_) fun _ => yields_pure h
    have hpeer : out.2.1.peer = p := (congrArg Seen.peer h.2.seen).trans hp
    refine (selectUpFrom_yields group { out.2.1 with mcsGroup := group } hpeer rfl fun g hle =>
      hin g (by omega)).mono fun _ h' => ⟨h'.1, ?_⟩
    exact h.2.trans (SameButQuality.trans ⟨group, _, rfl⟩ h'.2)

end up

theorem decLink_seen (link : ℕ) (done : List ℕ) (e : RaEntry) : (decLink link done e).seen = e.seen := by
  unfold decLink
  split <;> rfl

theorem decLinks_seen (row : RateRow) (curr up : ℕ) (e : RaEntry) : (decLinks row curr up e).seen = e.seen := by
  unfold decLinks
  extract_lets e₁ e₂ e₃ e₄
  split
  · rfl
  · rw [decLink_seen, decLink_seen, decLink_seen]
    rfl

theorem decGood_seen (row : RateRow) (curr up trainUp ratio : ℕ) (e : RaEntry) :
    (decGood row curr up trainUp ratio e).seen = e.seen := by
  unfold decGood
  split
  · exact decLinks_seen row curr up e
  · split <;> rfl

section changes

variable (hlt : ∀ i, G r t i → i < t.size) {up down trainUp trainDown ratio : ℕ}
include hlt

theorem newTrain_yields (h : Moving G r p t e) (hup : G r t up) (hdown : G r t down) :
    Yields (newTrain t e up down trainUp trainDown ratio) (Moving G r p t) := by
  unfold newTrain
  extract_lets curr
  refine (entry_yields (hlt _ h.curr)).bind fun row _ => ?_
  refine (access_yields (hlt _ h.curr)).bind fun _ _ => Yields.ite (fun _ => ?_) fun _ => ?_
  · refine yields_pure ?_
    have h' : Moving G r p t (mlmeSetTxQuality e curr drsTxQualityWorstBound) := h.of_seen rfl
    split
    · exact ⟨h'.support, h'.peer, h'.table, hdown, h'.calls⟩
    · exact h'
  · refine (access_yields (hlt _ hup)).bind fun _ _ => ?_
    refine yields_pure ?_
    have h' : Moving G r p t (decGood row curr up trainUp ratio e) := h.of_seen (decGood_seen ..)
    split
    · exact ⟨h'.support, h'.peer, h'.table, hup, h'.calls⟩
    · exact h'

theorem newChange_yields {curr : ℕ} (h : Moving G r p t e) (hcurr : G r t curr) :
    Yields (newChange pAd t e curr) (At G r p t) := by
  unfold newChange
  refine Yields.ite (fun _ => ?_) fun hno => yields_pure (h.at (not_not.1 hno))
  extract_lets e₁
  have h₁ : At G r p t e₁ := ⟨⟨h.support, h.peer, h.table, h.curr, h.calls⟩, fun _ => hcurr⟩
  refine (access_yields (hlt _ h.curr)).bind fun _ _ => mlmeNewTxRate_yields hlt (h₁.of_seen ?_)
  split <;> rfl

end changes

theorem groupByRssi_yields {rssi : ℤ} (hlt : ∀ i, G r t i → i < t.size) (h : At G r p t e)
    (hidx : G r t (mlmeSelectTxRateAdapt pAd p t (mlmeGetSupportedMcsAdapt pAd t) rssi (groupRssiOffset pAd)).1) :
    Yields (groupByRssi pAd rssi t e) (At G r p t) := by
  unfold groupByRssi
  extract_lets mcs
  rw [← h.peer] at hidx
  refine (mlmeNewTxRate_yields hlt ?_).bind fun e₁ h₁ => yields_pure (h₁.of_seen rfl)
  exact ⟨⟨h.support, h.peer, h.table, hidx, h.calls⟩, fun _ => h.curr⟩

/-- **The group step.** It ends, and keeps `G`. The next rates up and down are looked for at every step: they
are rows, and have `G` if the step trains. -/
theorem groupTick_yields {s : Sample} (hcl : GroupClosed G pAd s t e) (h : At G e.support e.peer t e) :
    Yields (groupTick pAd s t e) (At G e.support e.peer t) := by
  have hcurr := hcl.lt _ h.curr
  unfold groupTick
  extract_lets alone c rssi e₁ curr
  have h₁ : At G e.support e.peer t e₁ := h.of_seen rfl
  let P : ℕ → Prop := fun i => i < t.size ∧ (Trains pAd s e → G e.support t i)
  refine (entry_yields hcurr).bind fun row hrow => ?_
  have hup : Yields (mlmeSelectUpRate pAd t row e₁) fun out => P out.1 ∧ SameButQuality e₁ out.2 := by
    refine selectUpFrom_yields (fun _ hi => hi.1) e₁.mcsGroup e₁ rfl rfl fun group hgroup i hi => ⟨⟨?_, ?_⟩, ?_⟩
    · exact groupLinks_lt hcl.fits hrow group i hi
    · exact fun htrains => (hcl.up htrains row hrow group hgroup i hi).1
    · intro hskip next hnext h32
      exact ⟨upMcs1_lt hnext, fun htrains => (hcl.up htrains row hrow group hgroup i hi).2 hskip next hnext h32⟩
  refine hup.bind fun out hout => ?_
  obtain ⟨up, e₂⟩ := out
  have h₂ : At G e.support e.peer t e₂ := h₁.of_seen hout.2.seen
  have hdown : Yields (mlmeSelectDownRate pAd t e₂.peer curr) P := by
    rw [h₂.peer]
    refine (entry_yields hcurr).bind fun row' hrow' => ?_
    refine downFrom_yields ⟨hcurr, fun _ => h.curr⟩ _ _ (downMcs_lt hrow') (downMcs_lt hrow') fun i hi next hnext hv => ?_
    exact ⟨lt_size hnext, fun htrains => hcl.down htrains row' hrow' i hi next hnext hv⟩
  refine hdown.bind fun down hdown => Yields.ite (fun hfew => ?_) fun hmany => ?_
  · refine Yields.ite (fun _ => ?_) fun _ => yields_pure (h₂.of_seen rfl)
    exact groupByRssi_yields hcl.lt (h₂.of_seen rfl) (hcl.rssi hfew rssi)
  · refine Yields.ite (fun _ => ?_) fun hlast => ?_
    · exact yields_pure ⟨⟨h₂.support, h₂.peer, h₂.table, h₂.curr, h₂.calls⟩, fun hne => absurd rfl hne⟩
    · have htrains : Trains pAd s e := by
        refine ⟨not_le.1 hmany, ?_⟩
        rw [← show e₂.fLastSecAccordingRSSI = e.fLastSecAccordingRSSI from hout.2.fLast]
        exact Bool.eq_false_iff.2 hlast
      refine (access_yields hcurr).bind fun _ _ => ?_
      have h₃ : Moving G e.support e.peer t { setPER { e₂ with lowTrafficCount := 0 } curr c.errorRatio with
          lastSecTxRateChangeAction := .noChange } :=
        ⟨h₂.support, h₂.peer, h₂.table, h₂.curr, h₂.calls⟩
      exact (newTrain_yields hcl.lt h₃ (hout.1.2 htrains) (hdown.2 htrains)).bind fun _ h₄ =>
        newChange_yields hcl.lt h₄ h₂.curr

end group

/-! ### The quick check with a group table -/

section quickGroup

variable (hlt : ∀ i, G r t i → i < t.size) {row : RateRow} {curr trainDown ratio scaled : ℕ} {rssi : ℤ}
  {c : TxCount}

theorem mlmeSetMcsGroup_at (h : At G r p t e) : At G r p t (mlmeSetMcsGroup pAd e) := h.of_seen rfl

include hlt

theorem mlmeRAHybridRule_yields (h : At G r p t e) (hact : e.lastSecTxRateChangeAction ≠ .noChange) :
    Yields (mlmeRAHybridRule pAd t e row scaled ratio) fun _ => True := by
  unfold mlmeRAHybridRule
  refine Yields.ite (fun _ => yields_pure trivial) fun _ => Yields.ite (fun _ => yields_pure trivial) fun _ => ?_
  exact (entry_yields (hlt _ (h.last hact))).bind fun _ _ => yields_pure trivial

theorem useOldRate_yields (h : At G r p t e) (hact : e.lastSecTxRateChangeAction ≠ .noChange) :
    Yields (useOldRate pAd t e row rssi scaled trainDown ratio) fun _ => True := by
  have hybrid : Yields (mlmeRAHybridRule pAd t e row scaled ratio) fun _ => True :=
    mlmeRAHybridRule_yields hlt h hact
  unfold useOldRate
  refine Yields.ite (fun _ => yields_pure trivial) fun _ => Yields.ite (fun _ => hybrid) fun _ => ?_
  refine Yields.ite (fun _ => Yields.ite (fun _ => yields_pure trivial) fun _ => hybrid) fun _ => ?_
  exact yields_pure trivial

theorem compareUp_yields (h : At G r p t e) (hact : e.lastSecTxRateChangeAction ≠ .noChange) :
    Yields (compareUp pAd t rssi row curr trainDown c e)
      fun e' => At G r p t e' ∧ e'.lastSecTxRateChangeAction = e.lastSecTxRateChangeAction := by
  unfold compareUp
  extract_lets scaled
  refine (useOldRate_yields hlt h hact).bind fun old _ => Yields.ite (fun _ => ?_) fun _ => ?_
  · exact yields_pure ⟨At.restore (h.of_seen rfl) hact, rfl⟩
  · refine (entry_yields (hlt _ (h.last hact))).bind fun last _ => ?_
    extract_lets e₁
    have hseen : e₁.seen = e.seen := by
      simp only [e₁]
      split <;> rfl
    have hact₁ : e₁.lastSecTxRateChangeAction = e.lastSecTxRateChangeAction :=
      congrArg Seen.lastSecTxRateChangeAction hseen
    refine yields_pure ?_
    split
    · exact ⟨mlmeSetMcsGroup_at (h.of_seen hseen), hact₁⟩
    · exact ⟨h.of_seen hseen, hact₁⟩

omit hlt in
theorem compareDown_at (h : At G r p t e) (hact : e.lastSecTxRateChangeAction ≠ .noChange) :
    At G r p t (compareDown pAd trainDown c e) := by
  unfold compareDown
  split
  · exact mlmeSetMcsGroup_at h
  · split
    · exact h.restore hact
    · exact mlmeSetMcsGroup_at h

omit hlt in
theorem endOfGroup_seen (row : RateRow) (curr : ℕ) (e : RaEntry) : (endOfGroup row curr e).seen = e.seen := by
  unfold endOfGroup
  extract_lets up
  split <;> rfl

theorem nextGroup_yields (h : At G r p t e) (hact : e.lastSecTxRateChangeAction ≠ .noChange) :
    Yields (nextGroup t row curr e) (At G r p t) := by
  unfold nextGroup
  refine Yields.ite (fun _ => ?_) fun _ => yields_pure (h.of_seen (endOfGroup_seen ..))
  refine (entry_yields (hlt _ (h.last hact))).bind fun last _ => yields_pure ?_
  exact h.of_seen ((endOfGroup_seen ..).trans rfl)

theorem groupRestored_yields (h : At G r p t e) : Yields (groupRestored pAd t curr e) (At G r p t) := by
  unfold groupRestored
  refine Yields.ite (fun _ => ?_) fun _ => yields_pure h
  exact (access_yields (hlt _ h.curr)).bind fun _ _ => mlmeNewTxRate_yields hlt (h.of_seen rfl)

theorem groupQuick_yields {s : Sample} (h : At G r p t e)
    (hact : e.lastSecTxRateChangeAction ≠ .noChange) : Yields (groupQuick pAd s t e) (At G r p t) := by
  unfold groupQuick
  extract_lets c rssi curr
  refine (entry_yields (hlt _ h.curr)).bind fun row _ => ?_
  extract_lets train e₂
  refine Yields.ite (fun _ => mlmeNewTxRate_yields hlt (h.restore hact)) fun _ => ?_
  refine (access_yields (hlt _ h.curr)).bind fun _ _ => ?_
  have hseen : e₂.seen = e.seen := by
    simp only [e₂, enterPER]
    split <;> rfl
  have h₂ : At G r p t e₂ := h.of_seen hseen
  have hact₂ : e₂.lastSecTxRateChangeAction ≠ .noChange := by
    rw [show e₂.lastSecTxRateChangeAction = e.lastSecTxRateChangeAction from
      congrArg Seen.lastSecTxRateChangeAction hseen]
    exact hact
  split
  · refine (compareUp_yields hlt h₂ hact₂).bind fun e₃ h₃ => ?_
    refine (nextGroup_yields hlt h₃.1 (h₃.2 ▸ hact₂)).bind fun e₄ h₄ => ?_
    exact groupRestored_yields hlt h₄
  · exact groupRestored_yields hlt (compareDown_at h₂ hact₂)
  · exact groupRestored_yields hlt h₂

end quickGroup

/-! ### The periodic steps -/

/-- The table that a step has chosen is the entry's, or the stored indices have `G` in it as well. -/
def Kept (G : SupportMcs → RateTable → ℕ → Prop) (t : RateTable) (e : RaEntry) : Prop :=
  e.pTable = some t ∨
    G e.support t e.currTxRateIndex ∧ (e.lastSecTxRateChangeAction ≠ .noChange → G e.support t e.lastRateIdx)

/-- What the periodic step can choose has `G`. -/
def Closed (G : SupportMcs → RateTable → ℕ → Prop) (pAd : Adapter) (s : Sample) (t : RateTable)
    (e : RaEntry) : Prop :=
  if t.adapt then GroupClosed G pAd s t e else LegacyClosed G pAd s t e

theorem Inv.at (h : Inv G e) (hkept : Kept G t e) : At G e.support e.peer t { e with pTable := some t } := by
  rcases hkept with ht | ⟨hcurr, hlast⟩
  · exact ⟨⟨rfl, rfl, rfl, h.curr t ht, h.calls⟩, fun hne => h.last hne t ht⟩
  · exact ⟨⟨rfl, rfl, rfl, hcurr, h.calls⟩, hlast⟩

/-- **The periodic step.** If a table is chosen for which the indices are kept and closed, the step ends and
keeps `G`. -/
theorem mlmeDynamicTxRateSwitching_yields {s : Sample} (h : Inv G e)
    (hok : pAd.autoTxRateSwitch = true → ∃ t, mlmeSelectTxRateTable pAd e = some t ∧ Kept G t e ∧
      Closed G pAd s t { e with pTable := some t }) : Yields (mlmeDynamicTxRateSwitching pAd s e) (Inv G) := by
  unfold mlmeDynamicTxRateSwitching
  refine Yields.ite (fun hauto => ?_) fun _ => yields_ok h
  obtain ⟨t, ht, hkept, hcl⟩ := hok hauto
  rw [ht]
  have hat := h.at hkept
  unfold Closed at hcl
  refine Yields.ite (fun hadapt => ?_) fun hadapt => ?_
  · rw [if_pos hadapt] at hcl
    exact (groupTick_yields hcl hat).mono fun _ h' => h'.inv
  · rw [if_neg hadapt] at hcl
    exact (legacyTick_yields hcl hat).mono fun _ h' => h'.inv

/-- **The quick check.** If a table is chosen for which the indices are kept, the check ends and keeps `G`. -/
theorem staQuickResponeForRateUpExec_yields {s : Sample} (h : Inv G e)
    (hok : pAd.autoTxRateSwitch = true → e.lastSecTxRateChangeAction ≠ .noChange →
      ∃ t, mlmeSelectTxRateTable pAd e = some t ∧ Kept G t e ∧ ∀ i, G e.support t i → i < t.size) :
    Yields (staQuickResponeForRateUpExec pAd s e) (Inv G) := by
  unfold staQuickResponeForRateUpExec
  extract_lets e₁
  have h₁ : Inv G e₁ := ⟨h.curr, h.last, h.calls⟩
  refine Yields.ite (fun hrun => ?_) fun _ => yields_ok h₁
  obtain ⟨t, ht, hkept, hlt⟩ := hok hrun.1 hrun.2
  rw [show mlmeSelectTxRateTable pAd e₁ = some t from ht]
  have hat : At G e₁.support e₁.peer t { e₁ with pTable := some t } := h₁.at hkept
  refine Yields.ite (fun _ => ?_) fun _ => ?_
  · exact (groupQuick_yields hlt hat hrun.2).mono fun _ h' => h'.inv
  · exact (legacyQuick_yields hlt hat hrun.2).mono fun _ h' => h'.inv

/-! ### The other steps -/

theorem Inv.raInit (h : Inv G e) (h0 : ∀ t, e.pTable = some t → G e.support t 0) : Inv G (mlmeRAInit pAd e) where
  curr := h0
  last := fun hne => absurd rfl hne
  calls := h.calls

theorem staAddMacTableEntry_yields {peer : Peer} {phy : HtPhyMode} (h : Inv G e)
    (h0 : pAd.autoTxRateSwitch = false → ∀ t, e.pTable = some t → G e.support t 0)
    (hok : pAd.autoTxRateSwitch = true → ∃ t,
      mlmeSelectTxRateTable pAd { e with peer := peer } = some t ∧ G e.support t t.initIndex) :
    Yields (staAddMacTableEntry pAd peer phy e) (Inv G) := by
  unfold staAddMacTableEntry
  extract_lets e₁
  refine Yields.ite (fun hauto => ?_) fun hauto => ?_
  case' refine_2 =>
    have h₁ : Inv G { e with peer := peer, htPhyMode := phy } := ⟨h.curr, h.last, h.calls⟩
    exact yields_ok (h₁.raInit (h0 (Bool.eq_false_iff.2 hauto)))
  obtain ⟨t, ht, hinit⟩ := hok hauto
  rw [show mlmeSelectTxRateTable pAd e₁ = some t from ht]
  have hat : At G e₁.support e₁.peer t { e₁ with pTable := some t, currTxRateIndex := t.initIndex } :=
    ⟨⟨rfl, rfl, rfl, hinit, h.calls⟩, fun hne => absurd rfl hne⟩
  exact yields_ok hat.inv

theorem linkUp_yields {phy maxPhy : HtPhyMode} (h : Inv G e)
    (hok : ∃ t, mlmeSelectTxRateTable pAd e = some t ∧ Kept G t e) : Yields (linkUp pAd phy maxPhy e) (Inv G) := by
  obtain ⟨t, ht, hkept⟩ := hok
  unfold linkUp
  rw [ht]
  have hinv := (h.at hkept).inv
  exact yields_ok ⟨hinv.curr, hinv.last, hinv.calls⟩

/-! ### Events -/

inductive Event
  /-- The peer is entered into the table (`StaAddMacTableEntry`). -/
  | addEntry (pAd : Adapter) (peer : Peer) (phy : HtPhyMode)
  /-- The peer's rates are recorded. -/
  | setSupportMCS (stack : ℕ → ℕ) (desired : DesiredPhy) (rates : PeerRates)
  /-- The link is up (`LinkUp`). -/
  | linkUp (pAd : Adapter) (phy maxPhy : HtPhyMode)
  | raInit (pAd : Adapter)
  /-- Other code sets the rate, as for a fixed rate. -/
  | setPhy (phy : HtPhyMode)
  | tick (pAd : Adapter) (s : Sample)
  | quick (pAd : Adapter) (s : Sample)
  | setRateAlg (raAlg : ℕ)

def step (e : RaEntry) : Event → Except Fault RaEntry
  | .addEntry pAd peer phy => staAddMacTableEntry pAd peer phy e
  | .setSupportMCS stack desired rates => .ok { e with support := rtmpSetSupportMCS stack desired rates }
  | .linkUp pAd phy maxPhy => linkUp pAd phy maxPhy e
  | .raInit pAd => .ok (mlmeRAInit pAd e)
  | .setPhy phy => .ok { e with htPhyMode := phy }
  | .tick pAd s => mlmeDynamicTxRateSwitching pAd s e
  | .quick pAd s => staQuickResponeForRateUpExec pAd s e
  | .setRateAlg raAlg => .ok (setRateAlgProc raAlg e)

def run (e : RaEntry) (evs : List Event) : Except Fault RaEntry := evs.foldlM step e

def RaEntry.zero : RaEntry where
  rateAlg := rateAlgGrp
  peer := ⟨1, [], 0, ⟨0, false, false, .bw20, 0⟩, false, false, false, false⟩
  support := .zero
  pTable := none
  currTxRateIndex := 0
  lastRateIdx := 0
  lowTrafficCount := 0
  perThrdAdj := 0
  mcsGroup := 0
  fLastSecAccordingRSSI := false
  lastSecTxRateChangeAction := .noChange
  lastTimeTxRateChangeAction := .noChange
  lastTxOkCount := 0
  lastTxPER := 0
  txRateUpPenalty := 0
  txQuality := fun _ => 0
  per := fun _ => 0
  htPhyMode := ⟨0, false, false, .bw20, 0⟩
  staHTPhyMode := ⟨0, false, false, .bw20, 0⟩
  quickTimerRunning := false
  calls := []

theorem Inv.zero (G : SupportMcs → RateTable → ℕ → Prop) : Inv G .zero where
  curr := by
    intro t ht
    cases ht
  last := fun hne => absurd rfl hne
  calls := by
    intro c hc
    cases hc

end Mt7610u.RateCtrl
