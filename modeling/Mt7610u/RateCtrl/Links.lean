import Mt7610u.RateCtrl.Group

/-! # Where the rates of a table lead

What a step can choose, for any property `P` of the chosen index: the links of a row, the rates that the
choice by RSSI names, and where the search for a down rate ends. -/

namespace Mt7610u.RateCtrl

open RateTable Lib.Outcome

variable {t : RateTable} {pAd : Adapter} {p : Peer} {P : ℕ → Prop}

/-! ### Links -/

theorem downMcs_facts (t : RateTable) :
    ∀ i < t.size, ∀ row ∈ t.rows[i]?, row.downMcs < t.size ∧
      (row.mode = modeCCK ∨ row.currMCS = 32 → row.downMcs ≤ i) := by
  cases t <;> decide

theorem upMcs_facts (t : RateTable) :
    ∀ i < t.size, ∀ row ∈ t.rows[i]?, row.upMcs1 < t.size ∧
      (t ≠ rateSwitchTableAdapt11N1S → row.upMcs2 < t.size ∧ row.upMcs3 < t.size) := by
  cases t <;> decide

theorem downMcs_lt {i : ℕ} {row : RateRow} (h : t.rows[i]? = some row) : row.downMcs < t.size :=
  (downMcs_facts t i (lt_size h) row h).1

theorem upMcs1_lt {i : ℕ} {row : RateRow} (h : t.rows[i]? = some row) : row.upMcs1 < t.size :=
  (upMcs_facts t i (lt_size h) row h).1

theorem upMcs_lt {i : ℕ} {row : RateRow} (ht : t ≠ rateSwitchTableAdapt11N1S)
    (h : t.rows[i]? = some row) : row.upMcs2 < t.size ∧ row.upMcs3 < t.size :=
  (upMcs_facts t i (lt_size h) row h).2 ht

theorem selectVht_ne {e : RaEntry} : selectVht pAd e ≠ some rateSwitchTableAdapt11N1S := by
  unfold selectVht
  split_ifs <;> decide

theorem selectAdhoc_ne {e : RaEntry} : selectAdhoc pAd e ≠ rateSwitchTableAdapt11N1S := by
  unfold selectAdhoc
  extract_lets
  split_ifs <;> decide

theorem selectLegacy_ne {e : RaEntry} : selectLegacy pAd e ≠ rateSwitchTableAdapt11N1S := by
  unfold selectLegacy
  split_ifs <;> decide

theorem oneStream_of_selectInfra {e : RaEntry} (h : selectInfra pAd e = rateSwitchTableAdapt11N1S) :
    e.mcsSet 1 = 0 ∨ pAd.txStream = 1 := by
  unfold selectInfra at h
  extract_lets ofdm cck24 at h
  split at h
  · next hone => exact hone.2.2
  · split at h
    · exact absurd h (by split_ifs <;> decide)
    · split at h
      · next hone => exact hone.2
      · split at h
        · exact absurd h (by split_ifs <;> decide)
        · exact absurd h selectLegacy_ne

/-- The one-stream table of the group algorithm is chosen for one stream only. The test for three streams does
not ask whether the peer takes two. -/
theorem oneStream_of_select {e : RaEntry} (h : mlmeSelectTxRateTable pAd e = some rateSwitchTableAdapt11N1S) :
    twoStreams pAd e.peer = false ∧ (threeStreams pAd e.peer = true → e.mcsSet 1 = 0) := by
  have hone : e.mcsSet 1 = 0 ∨ pAd.txStream = 1 := by
    unfold mlmeSelectTxRateTable at h
    split at h
    · exact absurd h selectVht_ne
    · split at h
      · exact absurd (Option.some.inj h) selectAdhoc_ne
      · exact oneStream_of_selectInfra (Option.some.inj h)
  unfold twoStreams threeStreams
  rcases hone with h1 | h1
  · have hoctet : e.peer.mcsOctet 1 = 0 := h1
    exact ⟨by simp [hoctet], fun _ => h1⟩
  · simp [h1]

/-! ### The next rate up -/

/-- The links of the row that `MlmeSelectUpRate` looks at for a group. -/
def groupLinks (pAd : Adapter) (p : Peer) (t : RateTable) (row : RateRow) (group : ℕ) : List ℕ :=
  if threeStreams pAd p then
    match group with
    | 0 => [row.upMcs3, row.upMcs2, row.upMcs1]
    | 3 => [row.upMcs3]
    | 2 => [row.upMcs2]
    | 1 => [row.upMcs1]
    | _ => [0]
  else if twoStreams pAd p ∨ t = rateTableVht2S then
    match group with
    | 0 => [row.upMcs2, row.upMcs1]
    | 2 => [row.upMcs2]
    | 1 => [row.upMcs1]
    | _ => [0]
  else
    match group with
    | 0 | 1 => [row.upMcs1]
    | _ => [0]

def OneStreamFits (pAd : Adapter) (p : Peer) (t : RateTable) : Prop :=
  t = rateSwitchTableAdapt11N1S → twoStreams pAd p = false ∧ threeStreams pAd p = false

theorem groupLinks_lt (hfits : OneStreamFits pAd p t) {curr : ℕ} {row : RateRow}
    (hrow : t.rows[curr]? = some row) (group : ℕ) : ∀ i ∈ groupLinks pAd p t row group, i < t.size := by
  have h0 : 0 < t.size := Nat.zero_lt_of_lt (lt_size hrow)
  have hup1 := upMcs1_lt hrow
  unfold groupLinks
  by_cases ht : t = rateSwitchTableAdapt11N1S
  · obtain ⟨h2, h3⟩ := hfits ht
    rw [h2, h3, ht]
    rw [ht] at h0 hup1
    simp only [reduceCtorEq, or_false, if_false, Bool.false_eq_true]
    split <;> simp [h0, hup1]
  · obtain ⟨hup2, hup3⟩ := upMcs_lt ht hrow
    split_ifs
    · split <;> simp [h0, hup1, hup2, hup3]
    · split <;> simp [h0, hup1, hup2]
    · split <;> simp [h0, hup1]

variable {e : RaEntry} {row : RateRow}

theorem preferLink_yields {link up : ℕ} (hup : up < t.size) :
    Yields (preferLink t e row link up) fun i => i = link ∨ i = up := by
  refine (access_yields hup).bind fun _ _ => yields_pure ?_
  split
  · exact .inl rfl
  · exact .inr rfl

theorem bestLink_yields {links : List ℕ} {link up : ℕ} (hin : ∀ i ∈ links, i < t.size) (hlink : link ∈ links)
    (hup : up ∈ links) : Yields (preferLink t e row link up) (· ∈ links) := by
  refine (preferLink_yields (hin _ hup)).mono fun i hi => ?_
  rcases hi with rfl | rfl
  · exact hlink
  · exact hup

theorem groupLink_yields (hin : ∀ i ∈ groupLinks pAd e.peer t row e.mcsGroup, i < t.size) :
    Yields (groupLink pAd t e row) (· ∈ groupLinks pAd e.peer t row e.mcsGroup) := by
  unfold groupLink
  unfold groupLinks at hin ⊢
  generalize e.mcsGroup = group at hin ⊢
  by_cases h3 : threeStreams pAd e.peer = true
  · simp only [h3, if_true] at hin ⊢
    rcases group with _ | _ | _ | _ | n
    · have hup : (if row.upMcs3 = row.itemNo then
          (if row.upMcs2 = row.itemNo then row.upMcs1 else row.upMcs2) else row.upMcs3) ∈
            [row.upMcs3, row.upMcs2, row.upMcs1] := by
        split_ifs <;> simp
      exact (bestLink_yields hin (by simp) hup).bind fun i hi => bestLink_yields hin (by simp) hi
    all_goals exact yields_pure List.mem_cons_self
  · simp only [h3, if_false, Bool.false_eq_true] at hin ⊢
    by_cases h2 : twoStreams pAd e.peer = true ∨ t = rateTableVht2S
    · simp only [if_pos h2] at hin ⊢
      rcases group with _ | _ | _ | n
      · have hup : (if row.upMcs2 = row.itemNo then row.upMcs1 else row.upMcs2) ∈
            [row.upMcs2, row.upMcs1] := by
          split <;> simp
        exact bestLink_yields hin (by simp) hup
      all_goals exact yields_pure List.mem_cons_self
    · simp only [if_neg h2] at hin ⊢
      rcases group with _ | _ | n
      all_goals exact yields_pure List.mem_cons_self

/-! ### The next rate down -/

/-- The rows that the down links lead to from the row `down` on, up to the first valid one. -/
def downChain (pAd : Adapter) (t : RateTable) (p : Peer) : ℕ → ℕ → List ℕ
  | 0, _ => []
  | fuel + 1, down =>
    match t.rows[down]? with
    | some row => if validDown pAd p row then [down] else down :: downChain pAd t p fuel row.downMcs
    | none => []

/-- **The search for a down rate ends.** It ends at the current rate or at a valid row. -/
theorem downFrom_yields {curr : ℕ} (hcurr : P curr) :
    ∀ fuel down, down < fuel → down < t.size →
      (∀ i ∈ downChain pAd t p fuel down, ∀ row ∈ t.rows[i]?, validDown pAd p row = true → P i) →
        Yields (downFrom pAd t p curr fuel down) P
  | fuel + 1, down, hfuel, hdown, hvalid => by
    unfold downChain at hvalid
    refine (entry_yields hdown).bind fun row hrow => ?_
    rw [hrow] at hvalid
    refine Yields.ite (fun hv => ?_) fun hv => ?_
    · exact yields_pure (hvalid down (by simp [hv]) row hrow hv)
    · refine Yields.ite (fun _ => yields_pure hcurr) fun hne => ?_
      -- only CCK and MCS 32 are not valid, and their links lead down
      have hkind : row.mode = modeCCK ∨ row.currMCS = 32 := by
        by_contra hk
        obtain ⟨hmode, hmcs⟩ := not_or.1 hk
        exact hv (by simp [validDown, hmode, hmcs])
      have hle := (downMcs_facts t down hdown row hrow).2 hkind
      refine downFrom_yields hcurr fuel row.downMcs (by omega) (downMcs_lt hrow) fun i hi => ?_
      exact hvalid i (by simp [hv, hi])

/-! ### The choice by RSSI -/

theorem length_fillMcs (slot : List ℤ → RateRow → Option ℕ) (t : RateTable) : (fillMcs slot t).length = 24 := by
  have hfold : ∀ (f : List ℤ → RateRow × ℕ → List ℤ), (∀ mcs rowIdx, (f mcs rowIdx).length = mcs.length) →
      ∀ (rows : List (RateRow × ℕ)) (mcs : List ℤ), (rows.foldl f mcs).length = mcs.length := by
    intro f hf rows
    induction rows with
    | nil => exact fun _ => rfl
    | cons rowIdx rows ih => exact fun mcs => (ih _).trans (hf mcs rowIdx)
  refine (hfold _ (fun mcs rowIdx => ?_) _ _).trans List.length_replicate
  split
  · exact List.length_set
  · rfl

theorem lt_of_mcsAt {slot : List ℤ → RateRow → Option ℕ} {k : ℕ} (h : 0 ≤ mcsAt (fillMcs slot t) k) : k < 24 := by
  by_contra hge
  have hout : mcsAt (fillMcs slot t) k = -1 :=
    List.getD_eq_default _ _ ((length_fillMcs slot t).le.trans (not_lt.1 hge))
  omega

theorem climb_of {Q : ℤ → Prop} {mcs : List ℤ} {takes : Rung → Bool} {fallback : ℤ} (hfb : Q fallback) :
    ∀ gs : List Rung, (∀ g ∈ gs, takes g = true → Q (mcsAt mcs g.pick)) → Q (climb mcs takes fallback gs)
  | [], _ => hfb
  | g :: gs, h => by
    unfold climb
    split
    · next hg => exact h g List.mem_cons_self hg
    · exact climb_of hfb gs fun g' hg' => h g' (List.mem_cons_of_mem g hg')

theorem takesRung_iff {mcs : List ℤ} {reaches : ℤ → Bool} {recorded : ℕ → Bool} {g : Rung} :
    takesRung mcs reaches recorded g = true ↔
      0 ≤ mcsAt mcs g.mcs ∧ reaches g.rssi = true ∧ recorded g.tested = true := by
  simp [takesRung, and_assoc]

theorem climbHt_of {mcs : List ℤ} {reaches : ℤ → Bool} {recorded : ℕ → Bool} {gs : List Rung}
    (hgs : ∀ g ∈ gs, g.tested = g.mcs ∧ g.pick = g.mcs) (h0 : P (uchar (mcsAt mcs 0)))
    (h : ∀ k, 0 ≤ mcsAt mcs k → recorded k = true → P (uchar (mcsAt mcs k))) :
    P (uchar (climb mcs (takesRung mcs reaches recorded) (mcsAt mcs 0) gs)) := by
  refine climb_of (Q := fun z => P (uchar z)) h0 gs fun g hg htakes => ?_
  obtain ⟨htested, hpick⟩ := hgs g hg
  obtain ⟨hpos, -, hrec⟩ := takesRung_iff.1 htakes
  rw [hpick]
  exact h g.mcs hpos (htested ▸ hrec)

theorem selectLegacyMode_of {r : SupportMcs} {mcs : List ℤ} {rssi : ℤ}
    (hhigh : r.supportOFDMMCS 7 = true → ∀ k, 4 ≤ k → k ≤ 7 → 0 ≤ mcsAt mcs k → P (uchar (mcsAt mcs k)))
    (hb : mcsAt mcs 4 = -1 → (∀ k, 1 ≤ k → k ≤ 3 → r.supportCCKMCS k = true → P (uchar (mcsAt mcs k))) ∧
      (r.supportCCKMCS 0 = true → P (uchar (mcsAt mcs 0))) ∧
      (r.supportCCKMCS 0 = false → P (uchar (mcsAt mcs 3))))
    (hg : mcsAt mcs 4 ≠ -1 → (∀ k, 1 ≤ k → k ≤ 3 → r.supportOFDMMCS k = true → P (uchar (mcsAt mcs k))) ∧
      P (uchar (mcsAt mcs 0))) : P (uchar (selectLegacyMode r mcs rssi)) := by
  have hlow : ∀ g ∈ rungsLow, g.tested = g.mcs ∧ g.pick = g.mcs ∧ 1 ≤ g.mcs ∧ g.mcs ≤ 3 := by decide
  have hhi : ∀ g ∈ rungsHighOFDM, g.tested = 7 ∧ g.pick = g.mcs ∧ 4 ≤ g.mcs ∧ g.mcs ≤ 7 := by decide
  unfold selectLegacyMode
  extract_lets reaches bOnly low
  refine climb_of (Q := fun z => P (uchar z)) ?_ _ fun g hmem htakes => ?_
  · split
    · next h4 =>
      obtain ⟨hk, h0, h3⟩ := hb h4
      refine climb_of (Q := fun z => P (uchar z)) ?_ _ fun g hmem htakes => ?_
      · split
        · next hc => exact h0 hc
        · next hc => exact h3 (Bool.eq_false_iff.2 hc)
      · obtain ⟨htested, hpick, h1, h3⟩ := hlow g hmem
        obtain ⟨-, -, hrec⟩ := takesRung_iff.1 htakes
        rw [hpick]
        exact hk g.mcs h1 h3 (htested ▸ hrec)
    · next h4 =>
      obtain ⟨hk, h0⟩ := hg h4
      refine climb_of (Q := fun z => P (uchar z)) h0 _ fun g hmem htakes => ?_
      obtain ⟨htested, hpick, h1, h3⟩ := hlow g hmem
      obtain ⟨-, -, hrec⟩ := takesRung_iff.1 htakes
      rw [hpick]
      exact hk g.mcs h1 h3 (htested ▸ hrec)
  · obtain ⟨htested, hpick, h4, h7⟩ := hhi g hmem
    obtain ⟨hpos, -, hrec⟩ := takesRung_iff.1 htakes
    rw [hpick]
    exact hhigh (htested ▸ hrec) g.mcs h4 h7 hpos

def plain (t : RateTable) : Bool := t = rateSwitchTable11B ∨ t = rateSwitchTable11BG ∨ t = rateSwitchTable11G

theorem selectTxRate_of {r : SupportMcs} {rssi offset : ℤ} (hadapt : t.adapt = false) (hplain : plain t = false)
    (h0 : P (uchar (mcsAt (mlmeGetSupportedMcs t) 0)))
    (h : ∀ k, 0 ≤ mcsAt (mlmeGetSupportedMcs t) k → r.supportHTMCS k = true →
      P (uchar (mcsAt (mlmeGetSupportedMcs t) k))) :
    P (mlmeSelectTxRate r t (mlmeGetSupportedMcs t) rssi offset) := by
  have h1 : ∀ g ∈ rungs1S, g.tested = g.mcs ∧ g.pick = g.mcs := by decide
  have h2 : ∀ g ∈ rungs2S, g.tested = g.mcs ∧ g.pick = g.mcs := by decide
  cases t <;> first
    | exact absurd hadapt (by decide)
    | exact absurd hplain (by decide)
    | exact climbHt_of h1 h0 h
    | exact climbHt_of h2 h0 h

theorem mcsHt_zero (b2 b3 : Bool) :
    0 ≤ mcsAt (fillMcs (mcsSlotHt b2 b3) rateSwitchTableAdapt11N1S) 0 ∧
      0 ≤ mcsAt (fillMcs (mcsSlotHt b2 b3) rateSwitchTableAdapt11N2S) 0 := by
  revert b2 b3
  decide

theorem mcsVht_pick :
    (∀ g ∈ Rung.of 0 0 :: rungsAdaptVht1S, 0 ≤ mcsAt (fillMcs (mcsSlotVht 1 9) rateTableVht1S) g.pick) ∧
    (∀ g ∈ Rung.of 0 0 :: rungsAdaptVht1SMcs7, 0 ≤ mcsAt (fillMcs (mcsSlotVht 1 7) rateTableVht1SMcs7) g.pick) ∧
    (∀ g ∈ Rung.of 0 0 :: rungsAdaptVht2S, 0 ≤ mcsAt (fillMcs (mcsSlotVht 2 7) rateTableVht2S) g.pick) := by
  decide

def adaptRungs (pAd : Adapter) (p : Peer) : RateTable → List Rung
  | rateTableVht2S => rungsAdaptVht2S
  | rateTableVht1S => rungsAdaptVht1S
  | rateTableVht1SMcs7 => rungsAdaptVht1SMcs7
  | _ => if threeStreams pAd p then rungsAdapt3S else if twoStreams pAd p then rungsAdapt2S else rungs1S

theorem selectTxRateAdapt_of {rssi offset : ℤ} (hadapt : t.adapt = true)
    (h : ∀ g ∈ Rung.of 0 0 :: adaptRungs pAd p t, 0 ≤ mcsAt (mlmeGetSupportedMcsAdapt pAd t) g.pick →
      P (uchar (mcsAt (mlmeGetSupportedMcsAdapt pAd t) g.pick))) :
    P (mlmeSelectTxRateAdapt pAd p t (mlmeGetSupportedMcsAdapt pAd t) rssi offset).1 := by
  have hall : ∀ gs, adaptRungs pAd p t = gs →
      (∀ g ∈ Rung.of 0 0 :: gs, 0 ≤ mcsAt (mlmeGetSupportedMcsAdapt pAd t) g.pick) → ∀ takes,
        P (uchar (climb (mlmeGetSupportedMcsAdapt pAd t) takes
          (mcsAt (mlmeGetSupportedMcsAdapt pAd t) 0) gs)) := by
    rintro gs rfl hgs takes
    refine climb_of (Q := fun z => P (uchar z)) (h _ List.mem_cons_self (hgs _ List.mem_cons_self)) _
      fun g hg _ => ?_
    exact h g (List.mem_cons_of_mem _ hg) (hgs g (List.mem_cons_of_mem _ hg))
  have hht : ∀ gs, adaptRungs pAd p t = gs → (∀ g ∈ gs, g.pick = g.mcs) →
      0 ≤ mcsAt (mlmeGetSupportedMcsAdapt pAd t) 0 → ∀ reaches : Rung → Bool,
        P (uchar (climb (mlmeGetSupportedMcsAdapt pAd t)
          (fun g => 0 ≤ mcsAt (mlmeGetSupportedMcsAdapt pAd t) g.mcs && reaches g)
          (mcsAt (mlmeGetSupportedMcsAdapt pAd t) 0) gs)) := by
    rintro gs rfl hgs h0 reaches
    refine climb_of (Q := fun z => P (uchar z)) (h _ List.mem_cons_self h0) _ fun g hg htakes => ?_
    rw [Bool.and_eq_true, decide_eq_true_iff] at htakes
    refine h g (List.mem_cons_of_mem _ hg) ?_
    rw [hgs g hg]
    exact htakes.1
  cases t <;> first | exact absurd hadapt (by decide) | skip
  case rateTableVht1S => exact hall _ rfl mcsVht_pick.1 _
  case rateTableVht1SMcs7 => exact hall _ rfl mcsVht_pick.2.1 _
  case rateTableVht2S => exact hall _ rfl mcsVht_pick.2.2 _
  case' rateSwitchTableAdapt11N1S => have h0 := (mcsHt_zero (pAd.txStream < 2) (pAd.txStream < 3)).1
  case' rateSwitchTableAdapt11N2S => have h0 := (mcsHt_zero (pAd.txStream < 2) (pAd.txStream < 3)).2
  all_goals
    unfold mlmeSelectTxRateAdapt
    extract_lets
    split_ifs with h3 h2
    · exact hht rungsAdapt3S (if_pos h3) (by decide) h0 _
    · exact hht rungsAdapt2S ((if_neg h3).trans (if_pos h2)) (by decide) h0 _
    · exact hht rungs1S ((if_neg h3).trans (if_neg h2)) (by decide) h0 _

end Mt7610u.RateCtrl
