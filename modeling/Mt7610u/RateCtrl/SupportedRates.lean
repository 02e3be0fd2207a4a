import Mt7610u.RateCtrl.IndexBounds

/-! # Only rates that the peer supports

`Usable` says that the rate of a row is recorded for the peer, in the array of its own mode; MCS 32 and the
initial row of the table are excepted. The algorithms do not ask for that: the group algorithm asks for no
recorded rate at all, and the legacy algorithm looks the MCS of a row up in an array that is chosen by the mode
of the current row. -/

namespace Mt7610u.RateCtrl

open RateTable Lib.Outcome

variable {t : RateTable} {pAd : Adapter} {r : SupportMcs} {e : RaEntry}

/-- The rate of the row `i` may be used. -/
def Usable (r : SupportMcs) (t : RateTable) (i : ℕ) : Prop :=
  ∃ row ∈ t.rows[i]?, r.recorded row = true ∨ row.currMCS = 32 ∨ i = t.initIndex

instance (i : ℕ) : Decidable (Usable r t i) := inferInstanceAs (Decidable (∃ row ∈ t.rows[i]?, _))

theorem Usable.lt {i : ℕ} (h : Usable r t i) : i < t.size := by
  obtain ⟨row, hrow, -⟩ := h
  exact lt_size hrow

theorem usable_initIndex : Usable r t t.initIndex := by
  obtain ⟨row, hrow⟩ := getElem?_rows t.initIndex_lt
  exact ⟨row, hrow, .inr (.inr rfl)⟩

/-! ### The legacy algorithm -/

def RssiRecorded (r : SupportMcs) : RateTable → Prop
  | rateSwitchTable11B => True
  | rateSwitchTable11BG =>
    (r.supportOFDMMCS 7 = true → ∀ k < 7, 4 ≤ k → r.supportOFDMMCS k = true) ∧
      (r.supportOFDMMCS 1 = true → r.supportCCKMCS 1 = true)
  | rateSwitchTable11G => r.supportOFDMMCS 7 = true → ∀ k < 7, 4 ≤ k → r.supportOFDMMCS k = true
  | _ => r.supportHTMCS 0 = true

instance : Decidable (RssiRecorded r t) := by
  cases t <;> unfold RssiRecorded <;> infer_instance

def LegacyRecorded (pAd : Adapter) (s : Sample) (t : RateTable) (e : RaEntry) : Prop :=
  (Trains pAd s e → ∀ row ∈ t.rows[e.currTxRateIndex]?, ∀ i < t.size,
    searchHit t (searchedArray e.support row) i = true → Usable e.support t i) ∧
  ((tickCount pAd s e).total ≤ 15 → RssiRecorded e.support t)

/-- The row that `MlmeGetSupportedMcs` enters for MCS `k`. -/
def kindAt (t : RateTable) (k : ℕ) : Option (ℕ × ℕ) :=
  t.rows[uchar (mcsAt (mlmeGetSupportedMcs t) k)]?.map fun row => (row.mode, row.currMCS)

theorem usable_of_kindAt {k mode : ℕ} (h : kindAt t k = some (mode, k))
    (hrec : ∀ row : RateRow, row.mode = mode → row.currMCS = k → r.recorded row = true) :
    Usable r t (uchar (mcsAt (mlmeGetSupportedMcs t) k)) := by
  obtain ⟨row, hrow, hkind⟩ := Option.map_eq_some_iff.1 h
  obtain ⟨hmode, hmcs⟩ := Prod.mk.inj hkind
  exact ⟨row, hrow, .inl (hrec row hmode hmcs)⟩

theorem recorded_cck {k : ℕ} (hk : k < maxLenOfCCKRates) (h : r.supportCCKMCS k = true) (row : RateRow)
    (hmode : row.mode = modeCCK) (hmcs : row.currMCS = k) : r.recorded row = true := by
  simp [SupportMcs.recorded, hmode, hmcs, hk, h]

theorem recorded_ofdm {k : ℕ} (hk : k < maxLenOfOFDMRates) (h : r.supportOFDMMCS k = true) (row : RateRow)
    (hmode : row.mode = modeOFDM) (hmcs : row.currMCS = k) : r.recorded row = true := by
  simp [SupportMcs.recorded, hmode, hmcs, hk, h, modeCCK, modeOFDM]

theorem recorded_ht {k : ℕ} (hk : k < maxLenOfHTRates) (h : r.supportHTMCS k = true) (row : RateRow)
    (hmode : row.mode = modeHTMix) (hmcs : row.currMCS = k) : r.recorded row = true := by
  simp [SupportMcs.recorded, hmode, hmcs, hk, h, modeCCK, modeOFDM, modeHTMix, modeVHT]

theorem kindAt_ht (hadapt : t.adapt = false) (hplain : plain t = false) :
    kindAt t 0 = some (modeHTMix, 0) ∧
      ∀ k < 24, 0 ≤ mcsAt (mlmeGetSupportedMcs t) k → kindAt t k = some (modeHTMix, k) := by
  revert hadapt hplain
  cases t <;> decide

theorem kindAt_plain :
    ((∀ k < 4, kindAt rateSwitchTable11B k = some (modeCCK, k)) ∧
      ∀ k < 8, 4 ≤ k → mcsAt (mlmeGetSupportedMcs rateSwitchTable11B) k = -1) ∧
    (∀ k < 8, kindAt rateSwitchTable11G k = some (modeOFDM, k)) ∧
    (∀ k < 8, kindAt rateSwitchTable11BG k = some (if k < 2 then modeCCK else modeOFDM, k)) ∧
    uchar (mcsAt (mlmeGetSupportedMcs rateSwitchTable11B) 3) = initIndex rateSwitchTable11B ∧
    uchar (mcsAt (mlmeGetSupportedMcs rateSwitchTable11BG) 0) = initIndex rateSwitchTable11BG ∧
    uchar (mcsAt (mlmeGetSupportedMcs rateSwitchTable11G) 0) = initIndex rateSwitchTable11G ∧
    mcsAt (mlmeGetSupportedMcs rateSwitchTable11BG) 4 ≠ -1 ∧
    mcsAt (mlmeGetSupportedMcs rateSwitchTable11G) 4 ≠ -1 := by
  decide

theorem selectTxRate_usable (hadapt : t.adapt = false) (hrssi : RssiRecorded r t) {rssi offset : ℤ} :
    Usable r t (mlmeSelectTxRate r t (mlmeGetSupportedMcs t) rssi offset) := by
  obtain ⟨⟨hB, hBno⟩, hG, hBG, hB3, hBG0, hG0, hBG4, hG4⟩ := kindAt_plain
  by_cases hplain : plain t = true
  · have hmode : Usable r t (uchar (selectLegacyMode r (mlmeGetSupportedMcs t) rssi)) := by
      cases t <;> first | exact absurd hplain (by decide) | skip
      case rateSwitchTable11B =>
        refine selectLegacyMode_of (fun _ k h4 h7 hk => ?_) (fun _ => ⟨fun k h1 h3 hk => ?_, fun hk => ?_,
          fun _ => ?_⟩) fun hne => absurd (hBno 4 (by decide) le_rfl) hne
        · rw [hBno k (by omega) h4] at hk
          exact absurd hk (by decide)
        · exact usable_of_kindAt (hB k (by omega)) (recorded_cck (Nat.lt_succ_of_le h3) hk)
        · exact usable_of_kindAt (hB 0 (by decide)) (recorded_cck (by decide) hk)
        · rw [hB3]
          exact usable_initIndex
      case rateSwitchTable11G =>
        refine selectLegacyMode_of (fun h7 k h4 hk7 _ => ?_) (fun h4 => absurd h4 hG4)
          fun _ => ⟨fun k h1 h3 hk => ?_, ?_⟩
        · refine usable_of_kindAt (hG k (by omega)) (recorded_ofdm (Nat.lt_succ_of_le hk7) ?_)
          rcases Nat.lt_or_eq_of_le hk7 with hlt | rfl
          · exact hrssi h7 k hlt h4
          · exact h7
        · exact usable_of_kindAt (hG k (by omega)) (recorded_ofdm (Nat.lt_succ_of_le (by omega)) hk)
        · rw [hG0]
          exact usable_initIndex
      case rateSwitchTable11BG =>
        refine selectLegacyMode_of (fun h7 k h4 hk7 _ => ?_) (fun h4 => absurd h4 hBG4)
          fun _ => ⟨fun k h1 h3 hk => ?_, ?_⟩
        · refine usable_of_kindAt ((hBG k (by omega)).trans (by rw [if_neg (by omega)]))
            (recorded_ofdm (Nat.lt_succ_of_le hk7) ?_)
          rcases Nat.lt_or_eq_of_le hk7 with hlt | rfl
          · exact hrssi.1 h7 k hlt h4
          · exact h7
        · by_cases hone : k < 2
          · obtain rfl : k = 1 := by omega
            exact usable_of_kindAt (hBG 1 (by decide)) (recorded_cck (by decide) (hrssi.2 hk))
          · exact usable_of_kindAt ((hBG k (by omega)).trans (by rw [if_neg hone]))
              (recorded_ofdm (Nat.lt_succ_of_le (by omega)) hk)
        · rw [hBG0]
          exact usable_initIndex
    cases t <;> first
      | exact absurd hplain (by decide)
      | exact hmode
  · have hht := kindAt_ht hadapt (Bool.eq_false_iff.2 hplain)
    have h0 : r.supportHTMCS 0 = true := by
      cases t <;> first
        | exact absurd hadapt (by decide)
        | exact absurd (by decide) hplain
        | exact hrssi
    refine selectTxRate_of hadapt (Bool.eq_false_iff.2 hplain) ?_ fun k hk hrec => ?_
    · exact usable_of_kindAt hht.1 (recorded_ht (by decide) h0)
    · exact usable_of_kindAt (hht.2 k (lt_of_mcsAt hk) hk) (recorded_ht (lt_of_mcsAt hk) hrec)

theorem legacyClosed_usable {s : Sample} (hadapt : t.adapt = false) (h : LegacyRecorded pAd s t e) :
    LegacyClosed Usable pAd s t e where
  lt := fun _ hi => hi.lt
  initIndex := usable_initIndex
  searched := by
    intro htrains row hrow i hhit
    refine h.1 htrains row hrow i ?_ hhit
    unfold searchHit at hhit
    split at hhit
    · next next hnext => exact lt_size hnext
    · cases hhit
  rssi := fun hfew _ => selectTxRate_usable hadapt (h.2 hfew)

/-! ### The group algorithm -/

def GroupRecorded (pAd : Adapter) (s : Sample) (t : RateTable) (e : RaEntry) : Prop :=
  (Trains pAd s e → ∀ row ∈ t.rows[e.currTxRateIndex]?,
    (∀ group ≤ e.mcsGroup, ∀ i ∈ groupLinks pAd e.peer t row group, UpOk (Usable e.support t) pAd e.peer t i) ∧
    ∀ i ∈ downChain pAd t e.peer t.size row.downMcs, ∀ next ∈ t.rows[i]?, validDown pAd e.peer next = true →
      Usable e.support t i) ∧
  ((tickCount pAd s e).total ≤ 15 → ∀ g ∈ Rung.of 0 0 :: adaptRungs pAd e.peer t,
    0 ≤ mcsAt (mlmeGetSupportedMcsAdapt pAd t) g.pick →
      Usable e.support t (uchar (mcsAt (mlmeGetSupportedMcsAdapt pAd t) g.pick)))

theorem groupClosed_usable {s : Sample} (hadapt : t.adapt = true) (hfits : OneStreamFits pAd e.peer t)
    (h : GroupRecorded pAd s t e) : GroupClosed Usable pAd s t e where
  lt := fun _ hi => hi.lt
  fits := hfits
  up := fun htrains row hrow => (h.1 htrains row hrow).1
  down := fun htrains row hrow => (h.1 htrains row hrow).2
  rssi := fun hfew _ => selectTxRateAdapt_of hadapt (h.2 hfew)

/-! ### Runs -/

def ChoicesRecorded (pAd : Adapter) (s : Sample) (t : RateTable) (e : RaEntry) : Prop :=
  if t.adapt then GroupRecorded pAd s t e else LegacyRecorded pAd s t e

def TableUsable (pAd : Adapter) (e : RaEntry) : Prop :=
  ¬VhtWithoutTable pAd e ∧ ∀ t ∈ mlmeSelectTxRateTable pAd e, Kept Usable t e

/-- The stored indices are usable with the record `r`. -/
def IndexUsable (r : SupportMcs) (e : RaEntry) : Prop :=
  ∀ t ∈ e.pTable, Usable r t e.currTxRateIndex ∧
    (e.lastSecTxRateChangeAction ≠ .noChange → Usable r t e.lastRateIdx)

def RatesOk (e : RaEntry) : Event → Prop
  | .addEntry pAd _ _ => (pAd.autoTxRateSwitch = true → ¬VhtWithoutTable pAd e) ∧
      (pAd.autoTxRateSwitch = false → ∀ t ∈ e.pTable, Usable e.support t 0)
  | .setSupportMCS stack desired rates => IndexUsable (rtmpSetSupportMCS stack desired rates) e
  | .linkUp pAd _ _ => TableUsable pAd e
  | .raInit _ => ∀ t ∈ e.pTable, Usable e.support t 0
  | .tick pAd s => pAd.autoTxRateSwitch = true → TableUsable pAd e ∧
      (threeStreams pAd e.peer = true → mlmeSelectTxRateTable pAd e ≠ some rateSwitchTableAdapt11N1S) ∧
      ∀ t ∈ mlmeSelectTxRateTable pAd e, ChoicesRecorded pAd s t e
  | .quick pAd _ => pAd.autoTxRateSwitch = true → e.lastSecTxRateChangeAction ≠ .noChange → TableUsable pAd e
  | .setPhy _ | .setRateAlg _ => True

section decidable

variable {s : Sample}

instance : Decidable (Trains pAd s e) := inferInstanceAs (Decidable (_ ∧ _))

instance {P : ℕ → Prop} [DecidablePred P] {p : Peer} {i : ℕ} : Decidable (UpOk P pAd p t i) :=
  inferInstanceAs (Decidable (_ ∧ _))

instance : DecidablePred (Usable r t) := fun _ => inferInstance

instance : Decidable (LegacyRecorded pAd s t e) := inferInstanceAs (Decidable (_ ∧ _))

instance : Decidable (GroupRecorded pAd s t e) := inferInstanceAs (Decidable (_ ∧ _))

instance : Decidable (ChoicesRecorded pAd s t e) := by unfold ChoicesRecorded; infer_instance

instance : Decidable (Kept Usable t e) :=
  inferInstanceAs (Decidable (_ ∨ Usable e.support t e.currTxRateIndex ∧
    (e.lastSecTxRateChangeAction ≠ .noChange → Usable e.support t e.lastRateIdx)))

instance : Decidable (TableUsable pAd e) := inferInstanceAs (Decidable (_ ∧ _))

instance : Decidable (IndexUsable r e) :=
  inferInstanceAs (Decidable (∀ t ∈ e.pTable, Usable r t e.currTxRateIndex ∧
    (e.lastSecTxRateChangeAction ≠ .noChange → Usable r t e.lastRateIdx)))

instance : ∀ ev : Event, Decidable (RatesOk e ev)
  | .addEntry pAd _ _ => inferInstanceAs (Decidable ((pAd.autoTxRateSwitch = true → ¬VhtWithoutTable pAd e) ∧
      (pAd.autoTxRateSwitch = false → ∀ t ∈ e.pTable, Usable e.support t 0)))
  | .setSupportMCS stack desired rates => inferInstanceAs (Decidable (IndexUsable (rtmpSetSupportMCS stack desired rates) e))
  | .linkUp pAd _ _ => inferInstanceAs (Decidable (TableUsable pAd e))
  | .raInit _ => inferInstanceAs (Decidable (∀ t ∈ e.pTable, Usable e.support t 0))
  | .tick pAd s => inferInstanceAs (Decidable (pAd.autoTxRateSwitch = true → TableUsable pAd e ∧
      (threeStreams pAd e.peer = true → mlmeSelectTxRateTable pAd e ≠ some rateSwitchTableAdapt11N1S) ∧
      ∀ t ∈ mlmeSelectTxRateTable pAd e, ChoicesRecorded pAd s t e))
  | .quick pAd _ => inferInstanceAs (Decidable (pAd.autoTxRateSwitch = true → e.lastSecTxRateChangeAction ≠ .noChange →
      TableUsable pAd e))
  | .setPhy _ | .setRateAlg _ => inferInstanceAs (Decidable True)

end decidable

theorem TableUsable.table (h : TableUsable pAd e) : ∃ t, mlmeSelectTxRateTable pAd e = some t ∧ Kept Usable t e := by
  obtain ⟨t, ht⟩ := exists_table h.1
  exact ⟨t, ht, h.2 t ht⟩

theorem closed_usable {s : Sample} (hfits : OneStreamFits pAd e.peer t) (h : ChoicesRecorded pAd s t e) :
    Closed Usable pAd s t { e with pTable := some t } := by
  unfold ChoicesRecorded at h
  unfold Closed
  split
  · next hadapt =>
    rw [if_pos hadapt] at h
    exact groupClosed_usable hadapt hfits h
  · next hadapt =>
    rw [if_neg hadapt] at h
    exact legacyClosed_usable (Bool.eq_false_iff.2 hadapt) h

theorem step_usable (e : RaEntry) (ev : Event) (h : Inv Usable e) (hok : RatesOk e ev) :
    Yields (step e ev) (Inv Usable) := by
  cases ev with
  | addEntry pAd peer phy =>
    refine staAddMacTableEntry_yields h hok.2 fun hauto => ?_
    have htable : ¬VhtWithoutTable pAd { e with peer := peer } := hok.1 hauto
    obtain ⟨t, ht⟩ := exists_table htable
    exact ⟨t, ht, usable_initIndex⟩
  | setSupportMCS stack desired rates =>
    exact yields_ok ⟨fun t ht => (hok t ht).1, fun hne t ht => (hok t ht).2 hne, h.calls⟩
  | linkUp pAd phy maxPhy => exact linkUp_yields h hok.table
  | raInit pAd => exact yields_ok (h.raInit hok)
  | setPhy phy => exact yields_ok ⟨h.curr, h.last, h.calls⟩
  | tick pAd s =>
    refine mlmeDynamicTxRateSwitching_yields h fun hauto => ?_
    obtain ⟨htable, h3, hrec⟩ := hok hauto
    obtain ⟨t, ht, hkept⟩ := htable.table
    exact ⟨t, ht, hkept, closed_usable (oneStreamFits ht h3) (hrec t ht)⟩
  | quick pAd s =>
    refine staQuickResponeForRateUpExec_yields h fun hauto hact => ?_
    obtain ⟨t, ht, hkept⟩ := (hok hauto hact).table
    exact ⟨t, ht, hkept, fun _ hi => hi.lt⟩
  | setRateAlg raAlg =>
    refine yields_ok ?_
    unfold setRateAlgProc
    split
    · exact ⟨h.curr, h.last, h.calls⟩
    · exact h

/-- **Only rates that the peer supports.** In a run in which every step finds the rates recorded that it can
choose, `MlmeNewTxRate` is only called for usable rows. -/
theorem run_usable (evs : List Event) (hok : AlongM step RatesOk .zero evs) :
    Yields (run .zero evs) fun e => ∀ c ∈ e.calls, Usable c.support c.table c.idx :=
  (yields_foldlM step_usable evs .zero (Inv.zero _) hok).mono fun _ h => h.calls

/-! ### Where others are used -/

def gBandStation : Adapter := { aBandStation with phyMode := 0x0d, channel := 6, bbpCurrentBW := .bw20 }

def narrowPeer : Peer := ⟨1, [0xff], 8, ⟨modeHTMix, false, true, .bw20, 7⟩, true, false, false, false⟩

/-- The station joins a network whose access point has the legacy rates `rates` and HT MCS 0 to 7, stays without
traffic for two intervals, and loses all packets afterwards. -/
def joinGBand (rates : List ℕ) : List Event :=
  [.addEntry gBandStation narrowPeer narrowPeer.maxHTPhyMode,
   .setSupportMCS (fun _ => 0) ⟨narrowPeer.mcsSet, false, 1⟩ ⟨rates, [], some narrowPeer.mcsSet, none⟩,
   .linkUp gBandStation narrowPeer.maxHTPhyMode narrowPeer.maxHTPhyMode,
   .tick gBandStation quietInterval, .tick gBandStation quietInterval, .tick gBandStation lossyInterval,
   .tick gBandStation lossyInterval]

def allRates : List Event :=
  joinGBand [0x82, 0x84, 0x8b, 0x96, 0x0c, 0x12, 0x18, 0x24, 0x30, 0x48, 0x60, 0x6c] ++
    [.quick gBandStation lossyInterval, .setRateAlg rateAlgLegacy, .tick gBandStation quietInterval,
     .tick gBandStation lossyInterval]

theorem run_usable_allRates : Yields (run .zero allRates) fun e => ∀ c ∈ e.calls, Usable c.support c.table c.idx :=
  run_usable allRates (by decide)

/-- Without CCK rates the group algorithm goes down to CCK 2 Mb/s all the same. With 11 Mb/s as the only CCK rate
the legacy algorithm goes down to CCK 5.5 Mb/s, since HT MCS 2 is recorded. -/
theorem not_run_usable :
    ¬Yields (run .zero (joinGBand [0x8c, 0x12, 0x98, 0x24, 0xb0, 0x48, 0x60, 0x6c]))
        (fun e => ∀ c ∈ e.calls, Usable c.support c.table c.idx) ∧
      ¬Yields (run .zero (.setRateAlg rateAlgLegacy :: joinGBand [0x96, 0x12, 0x98, 0x24, 0xb0, 0x48, 0x60, 0x6c]))
        (fun e => ∀ c ∈ e.calls, Usable c.support c.table c.idx) := by
  decide

end Mt7610u.RateCtrl
