import Mt7610u.RateCtrl.SupportedRates

/-! # The choice by RSSI, compared

The row that is chosen by RSSI for a table, over all signal strengths. A stronger signal passes every test that a
weaker one does, so a list of tests whose rates descend, down to what is taken if all fail, never chooses a faster
row for the weaker signal. -/

namespace Mt7610u.RateCtrl

open RateTable

namespace ByRssi

/-! ### Data rates -/

def tones : Bandwidth → ℕ
  | .bw20 => 52
  | .bw40 => 108
  | .bw80 => 234

def vhtBits : List ℕ := [3, 6, 9, 12, 18, 24, 27, 30, 36, 40]

def speed (bw : Bandwidth) (row : RateRow) : ℕ :=
  if row.mode = modeCCK then [10, 20, 55, 110].getD row.currMCS 0 * 108
  else if row.mode = modeOFDM then [60, 90, 120, 180, 240, 360, 480, 540].getD row.currMCS 0 * 108
  else
    let guard := if row.shortGI then 10 else 9
    if row.mode = modeVHT then tones bw * 5 * vhtBits.getD row.currMCS 0 * row.dataRate * guard
    else if row.currMCS = 32 then 60 * 108
    else tones bw * 5 * vhtBits.getD (row.currMCS % 8) 0 * (row.currMCS / 8 + 1) * guard

/-- The data rate of the row `idx`. -/
def speedAt (t : RateTable) (bw : Bandwidth) (idx : ℕ) : ℕ :=
  match t.rows[idx]? with
  | some row => speed bw row
  | none => 0

/-- That of an index that was read from `mcs`. -/
def score (t : RateTable) (bw : Bandwidth) (z : ℤ) : ℕ := speedAt t bw (uchar z)

/-- The row that the caller's algorithm chooses by RSSI, with the offset that it passes. -/
def chosen (pAd : Adapter) (e : RaEntry) (t : RateTable) (rssi : ℤ) : ℕ :=
  if t.adapt then
    (mlmeSelectTxRateAdapt pAd e.peer t (mlmeGetSupportedMcsAdapt pAd t) rssi (groupRssiOffset pAd)).1
  else mlmeSelectTxRate e.support t (mlmeGetSupportedMcs t) rssi (legacyRssiOffset pAd)

/-- For no signal is the row faster than for a stronger one, at any bandwidth, and it is always a row. -/
def Climbs (pAd : Adapter) (e : RaEntry) (t : RateTable) : Prop :=
  (∀ rssi₁ rssi₂, -128 ≤ rssi₁ → rssi₁ ≤ rssi₂ → rssi₂ ≤ 127 →
    ∀ bw, speedAt t bw (chosen pAd e t rssi₁) ≤ speedAt t bw (chosen pAd e t rssi₂)) ∧
  ∀ rssi, -128 ≤ rssi → rssi ≤ 127 → chosen pAd e t rssi < t.size

/-! ### Tests with descending rates -/

/-- The rates descend from one test that `can` pass to the next, and down to what is taken if all fail. -/
def Descends (val : ℤ → ℕ) (mcs : List ℤ) (can : Rung → Bool) (fallback : ℤ) (gs : List Rung) : Prop :=
  gs.Pairwise (fun g g' => can g = true → can g' = true → val (mcsAt mcs g'.pick) ≤ val (mcsAt mcs g.pick)) ∧
    ∀ g ∈ gs, can g = true → val fallback ≤ val (mcsAt mcs g.pick)

instance (val : ℤ → ℕ) (mcs : List ℤ) (can : Rung → Bool) (fallback : ℤ) (gs : List Rung) :
    Decidable (Descends val mcs can fallback gs) := inferInstanceAs (Decidable (_ ∧ _))

theorem climb_le {val : ℤ → ℕ} {mcs : List ℤ} {can takes takes' : Rung → Bool} {fallback : ℤ}
    (hmono : ∀ g, takes g = true → takes' g = true) (hcan : ∀ g, takes' g = true → can g = true) :
    ∀ gs, Descends val mcs can fallback gs → val (climb mcs takes fallback gs) ≤ val (climb mcs takes' fallback gs)
  | [], _ => le_rfl
  | g :: gs, h => by
    obtain ⟨hpair, hfb⟩ := h
    obtain ⟨hhead, htail⟩ := List.pairwise_cons.1 hpair
    have ih := climb_le hmono hcan gs ⟨htail, fun g' hg' => hfb g' (List.mem_cons_of_mem _ hg')⟩
    unfold climb
    by_cases htakes : takes g = true
    · rw [if_pos htakes, if_pos (hmono g htakes)]
    · rw [if_neg htakes]
      by_cases htakes' : takes' g = true
      · -- the weaker signal passes a later test or none
        rw [if_pos htakes']
        have hg := hcan g htakes'
        exact climb_of (Q := fun z => val z ≤ val (mcsAt mcs g.pick)) (hfb g List.mem_cons_self hg) gs
          fun g' hg' hpass => hhead g' hg' hg (hcan g' (hmono g' hpass))
      · rw [if_neg htakes']
        exact ih

variable {t : RateTable} {pAd : Adapter} {e : RaEntry} {bw : Bandwidth} {r : SupportMcs} {rssi₁ rssi₂ offset : ℤ}

def present (mcs : List ℤ) (g : Rung) : Bool := 0 ≤ mcsAt mcs g.mcs

theorem climb_takesRung_le {mcs : List ℤ} {reaches reaches' : ℤ → Bool} {recorded : ℕ → Bool} {fallback : ℤ}
    {gs : List Rung} (hreach : ∀ bound, reaches bound = true → reaches' bound = true)
    (hdesc : Descends (score t bw) mcs (fun g => present mcs g && recorded g.tested) fallback gs) :
    score t bw (climb mcs (takesRung mcs reaches recorded) fallback gs) ≤
      score t bw (climb mcs (takesRung mcs reaches' recorded) fallback gs) := by
  refine climb_le (fun g hg => ?_) (fun g hg => ?_) gs hdesc
  · obtain ⟨hpos, hr, hrec⟩ := takesRung_iff.1 hg
    exact takesRung_iff.2 ⟨hpos, hreach _ hr, hrec⟩
  · obtain ⟨hpos, -, hrec⟩ := takesRung_iff.1 hg
    simp [present, hpos, hrec]

theorem Descends.mono {val : ℤ → ℕ} {mcs : List ℤ} {can can' : Rung → Bool} {fallback : ℤ} {gs : List Rung}
    (h : Descends val mcs can fallback gs) (hcan : ∀ g, can' g = true → can g = true) :
    Descends val mcs can' fallback gs :=
  ⟨h.1.imp fun hgg' hg hg' => hgg' (hcan _ hg) (hcan _ hg'), fun g hmem hg => h.2 g hmem (hcan g hg)⟩

theorem exceeds_mono (h : rssi₁ ≤ rssi₂) (bound : ℤ) (hr : decide (rssi₁ > bound) = true) :
    decide (rssi₂ > bound) = true := by
  rw [decide_eq_true_eq] at hr ⊢
  omega

theorem atLeast_mono (h : rssi₁ ≤ rssi₂) (bound : ℤ) (hr : decide (rssi₁ ≥ bound) = true) :
    decide (rssi₂ ≥ bound) = true := by
  rw [decide_eq_true_eq] at hr ⊢
  omega

/-! ### HT tables -/

theorem descends_ht (bw : Bandwidth) :
    (∀ t ∈ [rateSwitchTable11N1S, rateSwitchTable11BGN1S, rateSwitchTable11N1SForABand],
      Descends (score t bw) (mlmeGetSupportedMcs t) (present (mlmeGetSupportedMcs t))
        (mcsAt (mlmeGetSupportedMcs t) 0) rungs1S) ∧
    ∀ t ∈ [rateSwitchTable11N2S, rateSwitchTable11BGN2S, rateSwitchTable11N2SForABand,
        rateSwitchTable11BGN2SForABand],
      Descends (score t bw) (mlmeGetSupportedMcs t) (present (mlmeGetSupportedMcs t))
        (mcsAt (mlmeGetSupportedMcs t) 0) rungs2S := by
  cases bw <;> decide

theorem selectHt_le (hadapt : t.adapt = false) (hplain : plain t = false) (h : rssi₁ ≤ rssi₂) :
    speedAt t bw (mlmeSelectTxRate r t (mlmeGetSupportedMcs t) rssi₁ offset) ≤
      speedAt t bw (mlmeSelectTxRate r t (mlmeGetSupportedMcs t) rssi₂ offset) := by
  obtain ⟨h1, h2⟩ := descends_ht bw
  have hcan : ∀ g, (present (mlmeGetSupportedMcs t) g && r.supportHTMCS g.tested) = true →
      present (mlmeGetSupportedMcs t) g = true := fun g hg => (Bool.and_eq_true_iff.1 hg).1
  have hone : t ∈ [rateSwitchTable11N1S, rateSwitchTable11BGN1S, rateSwitchTable11N1SForABand] →
      score t bw (climb (mlmeGetSupportedMcs t) (takesRung (mlmeGetSupportedMcs t)
          (fun bound => decide (rssi₁ > bound + offset)) r.supportHTMCS) (mcsAt (mlmeGetSupportedMcs t) 0) rungs1S) ≤
        score t bw (climb (mlmeGetSupportedMcs t) (takesRung (mlmeGetSupportedMcs t)
          (fun bound => decide (rssi₂ > bound + offset)) r.supportHTMCS) (mcsAt (mlmeGetSupportedMcs t) 0) rungs1S) :=
    fun ht => climb_takesRung_le (fun bound => exceeds_mono h (bound + offset)) ((h1 t ht).mono hcan)
  have htwo : t ∈ [rateSwitchTable11N2S, rateSwitchTable11BGN2S, rateSwitchTable11N2SForABand,
        rateSwitchTable11BGN2SForABand] →
      score t bw (climb (mlmeGetSupportedMcs t) (takesRung (mlmeGetSupportedMcs t)
          (fun bound => decide (rssi₁ ≥ bound + offset)) r.supportHTMCS) (mcsAt (mlmeGetSupportedMcs t) 0) rungs2S) ≤
        score t bw (climb (mlmeGetSupportedMcs t) (takesRung (mlmeGetSupportedMcs t)
          (fun bound => decide (rssi₂ ≥ bound + offset)) r.supportHTMCS) (mcsAt (mlmeGetSupportedMcs t) 0) rungs2S) :=
    fun ht => climb_takesRung_le (fun bound => atLeast_mono h (bound + offset)) ((h2 t ht).mono hcan)
  cases t <;> first
    | exact absurd hadapt (by decide)
    | exact absurd hplain (by decide)
    | exact hone (by decide)
    | exact htwo (by decide)

/-! ### Group tables -/

theorem descends_adaptHt (bw : Bandwidth) (b2 b3 : Bool) :
    ∀ t ∈ [rateSwitchTableAdapt11N1S, rateSwitchTableAdapt11N2S],
      ∀ gs ∈ [rungsAdapt3S, rungsAdapt2S, rungs1S],
        Descends (score t bw) (fillMcs (mcsSlotHt b2 b3) t) (present (fillMcs (mcsSlotHt b2 b3) t))
          (mcsAt (fillMcs (mcsSlotHt b2 b3) t) 0) gs := by
  revert b2 b3
  cases bw <;> decide

theorem descends_adaptVht (bw : Bandwidth) :
    Descends (score rateTableVht2S bw) (fillMcs (mcsSlotVht 2 7) rateTableVht2S) (fun _ => true)
        (mcsAt (fillMcs (mcsSlotVht 2 7) rateTableVht2S) 0) rungsAdaptVht2S ∧
      Descends (score rateTableVht1S bw) (fillMcs (mcsSlotVht 1 9) rateTableVht1S) (fun _ => true)
        (mcsAt (fillMcs (mcsSlotVht 1 9) rateTableVht1S) 0) rungsAdaptVht1S ∧
      Descends (score rateTableVht1SMcs7 bw) (fillMcs (mcsSlotVht 1 7) rateTableVht1SMcs7) (fun _ => true)
        (mcsAt (fillMcs (mcsSlotVht 1 7) rateTableVht1SMcs7) 0) rungsAdaptVht1SMcs7 := by
  cases bw <;> decide

variable (offset) in
theorem climb_reaches_le {mcs : List ℤ} {has can : Rung → Bool} {fallback : ℤ} {gs : List Rung}
    (h : rssi₁ ≤ rssi₂) (hcan : ∀ g, has g = true → can g = true)
    (hdesc : Descends (score t bw) mcs can fallback gs) :
    score t bw (climb mcs (fun g => has g && decide (rssi₁ > g.rssi + offset)) fallback gs) ≤
      score t bw (climb mcs (fun g => has g && decide (rssi₂ > g.rssi + offset)) fallback gs) := by
  refine climb_le (fun g hg => ?_) (fun g hg => hcan g (Bool.and_eq_true_iff.1 hg).1) gs hdesc
  obtain ⟨hhas, hr⟩ := Bool.and_eq_true_iff.1 hg
  exact Bool.and_eq_true_iff.2 ⟨hhas, exceeds_mono h _ hr⟩

theorem selectAdapt_le (hadapt : t.adapt = true) (h : rssi₁ ≤ rssi₂) :
    speedAt t bw (mlmeSelectTxRateAdapt pAd e.peer t (mlmeGetSupportedMcsAdapt pAd t) rssi₁ offset).1 ≤
      speedAt t bw (mlmeSelectTxRateAdapt pAd e.peer t (mlmeGetSupportedMcsAdapt pAd t) rssi₂ offset).1 := by
  obtain ⟨h2S, h1S, h1SMcs7⟩ := descends_adaptVht bw
  have hht : ∀ t ∈ [rateSwitchTableAdapt11N1S, rateSwitchTableAdapt11N2S],
      ∀ gs ∈ [rungsAdapt3S, rungsAdapt2S, rungs1S], _ := fun t ht gs hgs =>
    climb_reaches_le offset h (fun _ hg => hg)
      (descends_adaptHt bw (pAd.txStream < 2) (pAd.txStream < 3) t ht gs hgs)
  cases t <;> first | exact absurd hadapt (by decide) | skip
  case rateTableVht2S => exact climb_reaches_le offset h (fun _ _ => rfl) h2S
  case rateTableVht1S => exact climb_reaches_le offset h (fun _ _ => rfl) h1S
  case rateTableVht1SMcs7 => exact climb_reaches_le offset h (fun _ _ => rfl) h1SMcs7
  all_goals
    unfold mlmeSelectTxRateAdapt
    extract_lets
    split_ifs with h3 h2
    · exact hht _ (by simp) rungsAdapt3S (by simp)
    · exact hht _ (by simp) rungsAdapt2S (by simp)
    · exact hht _ (by simp) rungs1S (by simp)

/-! ### Tables without HT rates -/

theorem climb_append {mcs : List ℤ} {takes : Rung → Bool} {fallback : ℤ} (gs gs' : List Rung) :
    climb mcs takes fallback (gs ++ gs') = climb mcs takes (climb mcs takes fallback gs') gs := by
  induction gs with
  | nil => rfl
  | cons g gs ih => rw [List.cons_append, climb, ih, climb]

theorem climb_none {mcs : List ℤ} {takes : Rung → Bool} {fallback : ℤ} :
    ∀ gs : List Rung, (∀ g ∈ gs, takes g = false) → climb mcs takes fallback gs = fallback
  | [], _ => rfl
  | g :: gs, h => by
    rw [climb, h g List.mem_cons_self, if_neg Bool.false_ne_true]
    exact climb_none gs fun g' hg' => h g' (List.mem_cons_of_mem _ hg')

theorem selectLegacyMode_ofdm {mcs : List ℤ} {rssi : ℤ} (h4 : mcsAt mcs 4 ≠ -1) :
    selectLegacyMode r mcs rssi = climb mcs (takesRung mcs (fun bound => decide (rssi > bound)) r.supportOFDMMCS)
      (mcsAt mcs 0) (rungsHighOFDM ++ rungsLow) := by
  rw [climb_append]
  unfold selectLegacyMode
  extract_lets
  rw [if_neg h4]

theorem selectLegacyMode_cck {mcs : List ℤ} {rssi : ℤ} (h : ∀ k ∈ [4, 5, 6, 7], mcsAt mcs k = -1) :
    selectLegacyMode r mcs rssi = climb mcs (takesRung mcs (fun bound => decide (rssi > bound)) r.supportCCKMCS)
      (if r.supportCCKMCS 0 then mcsAt mcs 0 else mcsAt mcs 3) rungsLow := by
  have habsent : ∀ g ∈ rungsHighOFDM, mcsAt mcs g.mcs = -1 := by
    have hmcs : ∀ g ∈ rungsHighOFDM, g.mcs ∈ [4, 5, 6, 7] := by decide
    exact fun g hg => h _ (hmcs g hg)
  unfold selectLegacyMode
  extract_lets
  rw [climb_none rungsHighOFDM fun g hg => by simp [takesRung, habsent g hg], if_pos (h 4 (by simp))]

theorem descends_plain (bw : Bandwidth) :
    (∀ t ∈ [rateSwitchTable11BG, rateSwitchTable11G],
      Descends (score t bw) (mlmeGetSupportedMcs t) (present (mlmeGetSupportedMcs t))
        (mcsAt (mlmeGetSupportedMcs t) 0) (rungsHighOFDM ++ rungsLow)) ∧
    Descends (score rateSwitchTable11B bw) (mlmeGetSupportedMcs rateSwitchTable11B) (fun _ => true)
      (mcsAt (mlmeGetSupportedMcs rateSwitchTable11B) 0) rungsLow ∧
    Descends (score rateSwitchTable11B bw) (mlmeGetSupportedMcs rateSwitchTable11B) (fun g => g.tested ∉ [1, 2])
      (mcsAt (mlmeGetSupportedMcs rateSwitchTable11B) 3) rungsLow := by
  cases bw <;> decide

theorem selectOfdm_le (ht : t ∈ [rateSwitchTable11BG, rateSwitchTable11G]) (h : rssi₁ ≤ rssi₂) :
    score t bw (selectLegacyMode r (mlmeGetSupportedMcs t) rssi₁) ≤
      score t bw (selectLegacyMode r (mlmeGetSupportedMcs t) rssi₂) := by
  have h4 : ∀ t ∈ [rateSwitchTable11BG, rateSwitchTable11G], mcsAt (mlmeGetSupportedMcs t) 4 ≠ -1 := by decide
  rw [selectLegacyMode_ofdm (h4 t ht), selectLegacyMode_ofdm (h4 t ht)]
  refine climb_takesRung_le (exceeds_mono h) (((descends_plain bw).1 t ht).mono fun g hg => ?_)
  exact (Bool.and_eq_true_iff.1 hg).1

def Gap (r : SupportMcs) : Prop := r.supportCCKMCS 0 = false ∧ (r.supportCCKMCS 1 = true ∨ r.supportCCKMCS 2 = true)

instance : Decidable (Gap r) := inferInstanceAs (Decidable (_ ∧ _))

theorem mcs11B : mlmeGetSupportedMcs rateSwitchTable11B = [0, 1, 2, 3] ++ List.replicate 20 (-1) := by decide

theorem selectCck_eq {rssi : ℤ} : selectLegacyMode r (mlmeGetSupportedMcs rateSwitchTable11B) rssi =
    climb (mlmeGetSupportedMcs rateSwitchTable11B) (takesRung (mlmeGetSupportedMcs rateSwitchTable11B)
        (fun bound => decide (rssi > bound)) r.supportCCKMCS)
      (if r.supportCCKMCS 0 then mcsAt (mlmeGetSupportedMcs rateSwitchTable11B) 0
        else mcsAt (mlmeGetSupportedMcs rateSwitchTable11B) 3) rungsLow :=
  selectLegacyMode_cck (by decide)

theorem selectCck_le (hgap : ¬Gap r) (h : rssi₁ ≤ rssi₂) :
    score rateSwitchTable11B bw (selectLegacyMode r (mlmeGetSupportedMcs rateSwitchTable11B) rssi₁) ≤
      score rateSwitchTable11B bw (selectLegacyMode r (mlmeGetSupportedMcs rateSwitchTable11B) rssi₂) := by
  obtain ⟨-, hone, heleven⟩ := descends_plain bw
  rw [selectCck_eq, selectCck_eq]
  by_cases h0 : r.supportCCKMCS 0 = true
  · rw [if_pos h0]
    exact climb_takesRung_le (exceeds_mono h) (hone.mono fun _ _ => rfl)
  · rw [if_neg h0]
    -- 11 Mb/s is then the only rate that a test can choose
    obtain ⟨h1, h2⟩ := not_or.1 fun hor => hgap ⟨Bool.eq_false_iff.2 h0, hor⟩
    refine climb_takesRung_le (exceeds_mono h) (heleven.mono fun g hg => ?_)
    have hrec := (Bool.and_eq_true_iff.1 hg).2
    refine decide_eq_true fun hmem => ?_
    rcases List.mem_pair.1 hmem with hg1 | hg2
    · exact h1 (hg1 ▸ hrec)
    · exact h2 (hg2 ▸ hrec)

theorem selectCck_gap (hgap : Gap r) :
    mlmeSelectTxRate r rateSwitchTable11B (mlmeGetSupportedMcs rateSwitchTable11B) (-91) offset = 3 ∧
      ∃ rssi, -91 ≤ rssi ∧ rssi ≤ 127 ∧
        mlmeSelectTxRate r rateSwitchTable11B (mlmeGetSupportedMcs rateSwitchTable11B) rssi offset ∈ [1, 2] := by
  obtain ⟨h0, h12⟩ := hgap
  have hsel : ∀ rssi, mlmeSelectTxRate r rateSwitchTable11B (mlmeGetSupportedMcs rateSwitchTable11B) rssi offset =
      uchar (selectLegacyMode r (mlmeGetSupportedMcs rateSwitchTable11B) rssi) := fun _ => rfl
  simp only [hsel]
  simp only [selectCck_eq]
  simp only [mcs11B, h0]
  refine ⟨by simp [climb, takesRung, rungsLow, Rung.of, mcsAt, uchar], ?_⟩
  by_cases h2 : r.supportCCKMCS 2 = true
  · exact ⟨-86, by simp [climb, takesRung, rungsLow, Rung.of, mcsAt, uchar, h2]⟩
  · have h1 := h12.resolve_right h2
    exact ⟨-89, by simp [climb, takesRung, rungsLow, Rung.of, mcsAt, uchar, h1]⟩

/-! ### All tables -/

theorem chosen_lt (rssi : ℤ) : chosen pAd e t rssi < t.size := by
  unfold chosen
  cases hadapt : t.adapt with
  | true => exact selectTxRateAdapt_of (P := (· < t.size)) hadapt fun g _ hk => mcsAdapt_lt hadapt g.pick hk
  | false =>
    refine (@legacyClosed_inTable t pAd e quietInterval hadapt).rssi ?_ rssi
    unfold tickCount Sample.count
    split <;> decide

/-- **Stronger signals choose no slower rows, but for one table.** From the table of the CCK rates, a peer with 2 or
5.5 Mb/s and without 1 Mb/s is sent 11 Mb/s when its signal is the weakest. -/
theorem climbs_iff (pAd : Adapter) (e : RaEntry) (t : RateTable) :
    Climbs pAd e t ↔ ¬(t = rateSwitchTable11B ∧ Gap e.support) := by
  constructor
  · rintro ⟨hle, -⟩ ⟨rfl, hgap⟩
    obtain ⟨hfar, rssi, hlow, hhigh, hnear⟩ := @selectCck_gap e.support (legacyRssiOffset pAd) hgap
    have h := hle (-91) rssi (by omega) hlow hhigh .bw20
    have hchosen : ∀ rssi, chosen pAd e rateSwitchTable11B rssi = mlmeSelectTxRate e.support rateSwitchTable11B
        (mlmeGetSupportedMcs rateSwitchTable11B) rssi (legacyRssiOffset pAd) := fun _ => if_neg Bool.false_ne_true
    rw [hchosen, hchosen, hfar] at h
    rcases List.mem_pair.1 hnear with h1 | h2
    · rw [h1] at h
      exact absurd h (by decide)
    · rw [h2] at h
      exact absurd h (by decide)
  · refine fun hno => ⟨fun rssi₁ rssi₂ _ h _ bw => ?_, fun rssi _ _ => chosen_lt rssi⟩
    unfold chosen
    by_cases hadapt : t.adapt = true
    · simp only [if_pos hadapt]
      exact selectAdapt_le hadapt h
    · simp only [if_neg hadapt]
      have hlegacy : t.adapt = false := Bool.eq_false_iff.2 hadapt
      by_cases hplain : plain t = true
      · cases t <;> first | exact absurd hplain (by decide) | skip
        case rateSwitchTable11B => exact selectCck_le (fun hgap => hno ⟨rfl, hgap⟩) h
        case rateSwitchTable11BG => exact selectOfdm_le (by simp) h
        case rateSwitchTable11G => exact selectOfdm_le (by simp) h
      · exact selectHt_le hlegacy (Bool.eq_false_iff.2 hplain) h

def withoutOneMb : RaEntry :=
  { RaEntry.zero with
    rateAlg := rateAlgLegacy
    support := rtmpSetSupportMCS (fun _ => 0) ⟨[], false, 1⟩ ⟨[0x84, 0x8b, 0x96], [], none, none⟩ }

theorem not_climbs : ¬∀ pAd e t, mlmeSelectTxRateTable pAd e = some t → Climbs pAd e t := by
  intro hall
  have htable : mlmeSelectTxRateTable gBandStation withoutOneMb = some rateSwitchTable11B := by decide
  have hle := (hall gBandStation withoutOneMb _ htable).1 (-91) (-89) (by decide) (by decide) (by decide) .bw20
  exact absurd hle (by decide)

end ByRssi

end Mt7610u.RateCtrl
