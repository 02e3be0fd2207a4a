import Mt7610u.RateCtrl.Runs

/-! # Indices into the rate tables

Two algorithms with different tables share the index fields of an entry, and the table is chosen again at every
step. `InTable` says that an index is one of the table's; a run in which no step chooses a table that a stored
index does not fit uses no index behind a table. -/

namespace Mt7610u.RateCtrl

open RateTable Lib.Outcome

def InTable (_ : SupportMcs) (t : RateTable) (i : ℕ) : Prop := i < t.size

variable {t : RateTable} {pAd : Adapter} {e : RaEntry}

/-! ### What a step chooses -/

theorem mcsAt_lt (hadapt : t.adapt = false) :
    (0 ≤ mcsAt (mlmeGetSupportedMcs t) 0 ∧ 0 ≤ mcsAt (mlmeGetSupportedMcs t) 3) ∧
      ∀ k, 0 ≤ mcsAt (mlmeGetSupportedMcs t) k → uchar (mcsAt (mlmeGetSupportedMcs t) k) < t.size := by
  have hshort : ∀ k < 24, 0 ≤ mcsAt (mlmeGetSupportedMcs t) k →
      uchar (mcsAt (mlmeGetSupportedMcs t) k) < t.size := by
    revert hadapt
    cases t <;> decide
  exact ⟨by revert hadapt; cases t <;> decide, fun k hk => hshort k (lt_of_mcsAt hk) hk⟩

theorem legacyClosed_inTable {s : Sample} (hadapt : t.adapt = false) : LegacyClosed InTable pAd s t e where
  lt := fun _ h => h
  initIndex := t.initIndex_lt
  searched := by
    intro _ _ _ i hhit
    unfold searchHit at hhit
    split at hhit
    · next row hrow => exact lt_size hrow
    · cases hhit
  rssi := by
    intro _ rssi
    obtain ⟨⟨h0, h3⟩, hall⟩ := mcsAt_lt hadapt
    by_cases hplain : plain t = true
    · have hmode : InTable e.support t (uchar (selectLegacyMode e.support (mlmeGetSupportedMcs t) rssi)) := by
        refine selectLegacyMode_of (fun _ k _ _ hk => hall k hk) (fun _ => ⟨fun k h1 hk3 _ => ?_, fun _ => hall 0 h0,
          fun _ => hall 3 h3⟩) fun _ => ⟨fun k h1 hk3 _ => ?_, hall 0 h0⟩
        all_goals
          refine hall k ?_
          have hlow : ∀ k < 4, 0 ≤ mcsAt (mlmeGetSupportedMcs t) k := by
            revert hplain
            cases t <;> decide
          exact hlow k (by omega)
      cases t <;> first
        | exact absurd hplain (by decide)
        | exact hmode
    · exact selectTxRate_of hadapt (Bool.eq_false_iff.2 hplain) (hall 0 h0) fun k hk _ => hall k hk

theorem mcsAdapt_lt (hadapt : t.adapt = true) (k : ℕ) (hk : 0 ≤ mcsAt (mlmeGetSupportedMcsAdapt pAd t) k) :
    uchar (mcsAt (mlmeGetSupportedMcsAdapt pAd t) k) < t.size := by
  have hht : ∀ b2 b3 : Bool, ∀ k < 24, ∀ t ∈ [rateSwitchTableAdapt11N1S, rateSwitchTableAdapt11N2S],
      0 ≤ mcsAt (fillMcs (mcsSlotHt b2 b3) t) k → uchar (mcsAt (fillMcs (mcsSlotHt b2 b3) t) k) < t.size := by
    decide
  have hvht : (∀ k < 24, 0 ≤ mcsAt (fillMcs (mcsSlotVht 1 9) rateTableVht1S) k →
        uchar (mcsAt (fillMcs (mcsSlotVht 1 9) rateTableVht1S) k) < size rateTableVht1S) ∧
      (∀ k < 24, 0 ≤ mcsAt (fillMcs (mcsSlotVht 1 7) rateTableVht1SMcs7) k →
        uchar (mcsAt (fillMcs (mcsSlotVht 1 7) rateTableVht1SMcs7) k) < size rateTableVht1SMcs7) ∧
      ∀ k < 24, 0 ≤ mcsAt (fillMcs (mcsSlotVht 2 7) rateTableVht2S) k →
        uchar (mcsAt (fillMcs (mcsSlotVht 2 7) rateTableVht2S) k) < size rateTableVht2S := by
    decide
  cases t
  case rateSwitchTableAdapt11N1S => exact hht _ _ k (lt_of_mcsAt hk) _ List.mem_cons_self hk
  case rateSwitchTableAdapt11N2S => exact hht _ _ k (lt_of_mcsAt hk) _ (List.mem_cons_of_mem _ List.mem_cons_self) hk
  case rateTableVht1S => exact hvht.1 k (lt_of_mcsAt hk) hk
  case rateTableVht1SMcs7 => exact hvht.2.1 k (lt_of_mcsAt hk) hk
  case rateTableVht2S => exact hvht.2.2 k (lt_of_mcsAt hk) hk
  all_goals cases hadapt

theorem groupClosed_inTable {s : Sample} (hadapt : t.adapt = true) (hfits : OneStreamFits pAd e.peer t) :
    GroupClosed InTable pAd s t e where
  lt := fun _ h => h
  fits := hfits
  up := fun _ _ hrow group _ i hi => ⟨groupLinks_lt hfits hrow group i hi, fun _ _ hnext _ => upMcs1_lt hnext⟩
  down := fun _ _ _ _ _ _ hnext _ => lt_size hnext
  rssi := fun _ _ => selectTxRateAdapt_of hadapt fun g _ hk => mcsAdapt_lt hadapt g.pick hk

/-! ### Runs -/

def VhtWithoutTable (pAd : Adapter) (e : RaEntry) : Prop :=
  pAd.phyMode &&& wmodeAC ≠ 0 ∧ e.support.claims supportVHTMode = true ∧ e.rateAlg ≠ rateAlgGrp

instance : Decidable (VhtWithoutTable pAd e) := inferInstanceAs (Decidable (_ ∧ _))

instance : Decidable (Kept InTable t e) :=
  inferInstanceAs (Decidable (_ ∨ e.currTxRateIndex < t.size ∧
    (e.lastSecTxRateChangeAction ≠ .noChange → e.lastRateIdx < t.size)))

def TableFits (pAd : Adapter) (e : RaEntry) : Prop :=
  ¬VhtWithoutTable pAd e ∧ ∀ t ∈ mlmeSelectTxRateTable pAd e, Kept InTable t e

instance : Decidable (TableFits pAd e) := inferInstanceAs (Decidable (_ ∧ _))

/-- Where an event keeps the indices in the table. The links of the one-stream table for more streams lead
behind it, so it is not to be used with three streams. -/
def IndexOk (e : RaEntry) : Event → Prop
  | .addEntry pAd _ _ => pAd.autoTxRateSwitch = true → ¬VhtWithoutTable pAd e
  | .linkUp pAd _ _ => TableFits pAd e
  | .tick pAd _ => pAd.autoTxRateSwitch = true → TableFits pAd e ∧
      (threeStreams pAd e.peer = true → mlmeSelectTxRateTable pAd e ≠ some rateSwitchTableAdapt11N1S)
  | .quick pAd _ => pAd.autoTxRateSwitch = true → e.lastSecTxRateChangeAction ≠ .noChange → TableFits pAd e
  | .setSupportMCS _ _ _ | .raInit _ | .setPhy _ | .setRateAlg _ => True

instance (ev : Event) : Decidable (IndexOk e ev) := by
  cases ev <;> unfold IndexOk <;> infer_instance

theorem exists_table (h : ¬VhtWithoutTable pAd e) : ∃ t, mlmeSelectTxRateTable pAd e = some t :=
  Option.ne_none_iff_exists'.1 fun hnone => h (mlmeSelectTxRateTable_eq_none_iff.1 hnone)

theorem TableFits.table (h : TableFits pAd e) : ∃ t, mlmeSelectTxRateTable pAd e = some t ∧ Kept InTable t e := by
  obtain ⟨t, ht⟩ := exists_table h.1
  exact ⟨t, ht, h.2 t ht⟩

theorem oneStreamFits (ht : mlmeSelectTxRateTable pAd e = some t)
    (h3 : threeStreams pAd e.peer = true → mlmeSelectTxRateTable pAd e ≠ some rateSwitchTableAdapt11N1S) :
    OneStreamFits pAd e.peer t := by
  rintro rfl
  exact ⟨(oneStream_of_select ht).1, Bool.eq_false_iff.2 fun hthree => h3 hthree ht⟩

theorem closed_inTable {s : Sample} (hfits : OneStreamFits pAd e.peer t) :
    Closed InTable pAd s t { e with pTable := some t } := by
  unfold Closed
  split
  · next hadapt => exact groupClosed_inTable hadapt hfits
  · next hadapt => exact legacyClosed_inTable (Bool.eq_false_iff.2 hadapt)

theorem step_inTable (e : RaEntry) (ev : Event) (h : Inv InTable e) (hok : IndexOk e ev) :
    Yields (step e ev) (Inv InTable) := by
  have hzero : ∀ t, e.pTable = some t → InTable e.support t 0 := fun t _ =>
    Nat.zero_lt_of_lt t.one_lt_size
  cases ev with
  | addEntry pAd peer phy =>
    refine staAddMacTableEntry_yields h (fun _ => hzero) fun hauto => ?_
    have htable : ¬VhtWithoutTable pAd { e with peer := peer } := hok hauto
    obtain ⟨t, ht⟩ := exists_table htable
    exact ⟨t, ht, t.initIndex_lt⟩
  | setSupportMCS stack desired rates => exact yields_ok ⟨h.curr, h.last, h.calls⟩
  | linkUp pAd phy maxPhy => exact linkUp_yields h hok.table
  | raInit pAd => exact yields_ok (h.raInit hzero)
  | setPhy phy => exact yields_ok ⟨h.curr, h.last, h.calls⟩
  | tick pAd s =>
    refine mlmeDynamicTxRateSwitching_yields h fun hauto => ?_
    obtain ⟨hfits, h3⟩ := hok hauto
    obtain ⟨t, ht, hkept⟩ := hfits.table
    exact ⟨t, ht, hkept, closed_inTable (oneStreamFits ht h3)⟩
  | quick pAd s =>
    refine staQuickResponeForRateUpExec_yields h fun hauto hact => ?_
    obtain ⟨t, ht, hkept⟩ := (hok hauto hact).table
    exact ⟨t, ht, hkept, fun _ hi => hi⟩
  | setRateAlg raAlg =>
    refine yields_ok ?_
    unfold setRateAlgProc
    split
    · exact ⟨h.curr, h.last, h.calls⟩
    · exact h

/-- **Runs stay in the tables.** In a run in which every step finds a table, and stored indices that fit it if it
is another one than before, no row, quality or loss behind a table is used, and all indices end in the table. -/
theorem run_inTable (evs : List Event) (hok : AlongM step IndexOk .zero evs) :
    Yields (run .zero evs) (Inv InTable) :=
  yields_foldlM step_inTable evs .zero (Inv.zero _) hok

/-! ### Where they do not stay -/

/-- A one-stream station on channel 36, at 40 MHz, with the default settings of the adaptation. -/
def aBandStation : Adapter where
  autoTxRateSwitch := true
  phyMode := 0x31
  isMT76x0 := true
  adhocOn := false
  infraOn := true
  channel := 36
  txPath := 1
  txStream := 1
  maxTxRate := 11
  minTxRate := 0
  bbpCurrentBW := .bw40
  externalLNAForG := false
  externalLNAForA := false
  lowTrafficThrd := 2
  trainUpRule := 2
  trainUpRuleRSSI := -70
  trainUpLowThrd := 90
  trainUpHighThrd := 110
  raFastInterval := 100
  macTabSize := 1
  htModeGF := false
  maxSTBC := true
  maxShortGI := true

def oneStreamPeer : Peer := ⟨1, [0xff, 0, 0, 0, 1], 8, ⟨modeHTMix, false, true, .bw40, 7⟩, true, true, false, false⟩

/-- The station joins a network whose access point has the OFDM rates, the HT rates of one stream and perhaps
VHT rates. -/
def joinABand (vhtCap : Option (ℕ × ℕ)) : List Event :=
  [.addEntry aBandStation oneStreamPeer oneStreamPeer.maxHTPhyMode,
   .setSupportMCS (fun _ => 0) ⟨oneStreamPeer.mcsSet, true, 1⟩
     ⟨[0x8c, 0x12, 0x98, 0x24, 0xb0, 0x48, 0x60, 0x6c], [], some oneStreamPeer.mcsSet, vhtCap⟩,
   .linkUp aBandStation oneStreamPeer.maxHTPhyMode oneStreamPeer.maxHTPhyMode]

def quietInterval : Sample := ⟨-90, -90, 0, 0, 0, 0, 0, 0⟩
def lossyInterval : Sample := ⟨-90, -90, 0, 0, 100, 0, 0, 0⟩

/-- Without traffic the rate goes to index 0, and after losses down to MCS 32, row 11 of the group table. -/
def downToMcs32 : List Event :=
  joinABand none ++
    [.tick aBandStation quietInterval, .tick aBandStation quietInterval, .tick aBandStation lossyInterval,
     .tick aBandStation lossyInterval]

theorem run_inTable_downToMcs32 : Yields (run .zero downToMcs32) (Inv InTable) :=
  run_inTable downToMcs32 (by decide)

/-- The algorithm is changed before the quick check, whose table has 9 rows only. For a VHT access point the
legacy algorithm has no table at all. -/
theorem not_run_inTable :
    ¬(∀ evs, Yields (run .zero evs) (Inv InTable)) ∧
      run .zero (downToMcs32 ++ [.setRateAlg rateAlgLegacy, .quick aBandStation lossyInterval]) =
        .error (.row rateSwitchTable11N1SForABand 11) ∧
      run .zero (joinABand (some (vhtMcsCap8, vhtMcsCapNA)) ++
        [.setRateAlg rateAlgLegacy, .tick aBandStation lossyInterval]) = .error .noTable := by
  have hrow : run .zero (downToMcs32 ++ [.setRateAlg rateAlgLegacy, .quick aBandStation lossyInterval]) =
      .error (.row rateSwitchTable11N1SForABand 11) := eq_error (by decide)
  refine ⟨fun hall => ?_, hrow, eq_error (by decide)⟩
  exact not_yields_error (hrow ▸ hall _)

end Mt7610u.RateCtrl
