import Mt7610u.RateCtrl.Support

/-! # Which rates are recorded for a peer

`RTMPSetSupportMCS` copies the two lists of rates that a peer announced into an array on its stack, one behind
the other, and records what it finds there. The offset of the second list is the announced length of the first,
also if the default list was copied instead, and its length, if it does not fit, is that of the array less its
own. -/

namespace Mt7610u.RateCtrl

/-! ### The copies -/

structure Move where
  offset : ℕ
  source : List ℕ
  length : ℕ

namespace Move

def apply (mem : ℕ → ℕ) (c : Move) (i : ℕ) : ℕ :=
  if c.offset ≤ i ∧ i < c.offset + c.length then c.source.getD (i - c.offset) 0 else mem i

/-- The copy stays inside `SupportedRates`. -/
def Inside (c : Move) : Prop := c.length = 0 ∨ c.offset + c.length ≤ maxLenOfSupportedRates

/-- The copy writes the octet `i`. -/
def Covers (c : Move) (i : ℕ) : Prop := c.offset ≤ i ∧ i < c.offset + c.length

instance (c : Move) : Decidable c.Inside := inferInstanceAs (Decidable (_ ∨ _))

instance (c : Move) (i : ℕ) : Decidable (c.Covers i) := inferInstanceAs (Decidable (_ ∧ _))

end Move

/-- An `int` as `size_t`. -/
def toSize (x : ℤ) : ℕ := (x % 2 ^ 64).toNat

/-- The copy of `SupRate`. -/
def supMove (supRate : List ℕ) : List Move :=
  if 0 < supRate.length then
    if supRate.length ≤ maxLenOfSupportedRates then [⟨0, supRate, supRate.length⟩] else [⟨0, rateDefault, 8⟩]
  else []

/-- The copy of `ExtRate`. -/
def extMove (supRate extRate : List ℕ) : List Move :=
  if 0 < extRate.length then
    if supRate.length + extRate.length ≤ maxLenOfSupportedRates then
      [⟨supRate.length, extRate, extRate.length⟩]
    else [⟨supRate.length, extRate, toSize (maxLenOfSupportedRates - extRate.length)⟩]
  else []

/-- All that is written to `SupportedRates`. -/
def moves (supRate extRate : List ℕ) : List Move := supMove supRate ++ extMove supRate extRate

/-- What a list leaves `SupportedRatesLen` at. -/
def supLen (supRate : List ℕ) : ℕ :=
  if supRate.length ≤ maxLenOfSupportedRates then supRate.length else 8

def supportedRatesLen (supRate extRate : List ℕ) : ℕ :=
  if 0 < extRate.length then
    if supRate.length + extRate.length ≤ maxLenOfSupportedRates then supLen supRate + extRate.length
    else maxLenOfSupportedRates
  else supLen supRate

/-- `SupportedRates` after the copies. -/
def buffer (stack : ℕ → ℕ) (supRate extRate : List ℕ) : ℕ → ℕ := (moves supRate extRate).foldl Move.apply stack

/-! ### What is announced -/

/-- The rates of `SupportCCKMCS[0]` … `[3]` and of `SupportOFDMMCS[0]` … `[7]`, in units of 500 kb/s. -/
def cckRates : List ℕ := [2, 4, 11, 22]
def ofdmRates : List ℕ := [12, 18, 24, 36, 48, 72, 96, 108]

def announced (p : PeerRates) : List ℕ :=
  ((if p.supRate.length ≤ maxLenOfSupportedRates then p.supRate else rateDefault) ++ p.extRate).take
    maxLenOfSupportedRates

/-- The array is used inside its bounds, is read only where it was written, and what is recorded are the
announced rates. -/
structure RecordsExactly (stack : ℕ → ℕ) (desired : DesiredPhy) (p : PeerRates) : Prop where
  writes : ∀ c ∈ moves p.supRate p.extRate, c.Inside
  reads : ∀ i < supportedRatesLen p.supRate p.extRate, ∃ c ∈ moves p.supRate p.extRate, c.Covers i
  cck : ∀ k < maxLenOfCCKRates, (rtmpSetSupportMCS stack desired p).supportCCKMCS k = true ↔
    ∃ rate ∈ announced p, cckRates[k]? = some (rate % 128)
  ofdm : ∀ k < maxLenOfOFDMRates, (rtmpSetSupportMCS stack desired p).supportOFDMMCS k = true ↔
    ∃ rate ∈ announced p, ofdmRates[k]? = some (rate % 128)

/-- The condition: there is no second list, or the lists fit, or they have the same length and each fits. -/
def Fits (p : PeerRates) : Prop :=
  p.extRate = [] ∨ p.supRate.length + p.extRate.length ≤ maxLenOfSupportedRates ∨
    p.supRate.length = p.extRate.length ∧ p.supRate.length ≤ maxLenOfSupportedRates

/-! ### The array -/

theorem toSize_of_le {m : ℕ} (h : m ≤ maxLenOfSupportedRates) :
    toSize (maxLenOfSupportedRates - m) = maxLenOfSupportedRates - m := by
  simp only [toSize, maxLenOfSupportedRates] at h ⊢
  omega

theorem toSize_of_gt {m : ℕ} (h : maxLenOfSupportedRates < m) (hm : m < 256) :
    maxLenOfSupportedRates < toSize (maxLenOfSupportedRates - m) := by
  simp only [toSize, maxLenOfSupportedRates] at h ⊢
  omega

theorem map_range_eq {xs : List ℕ} {f : ℕ → ℕ} {n : ℕ} (hlen : xs.length = n)
    (h : ∀ i < n, f i = xs.getD i 0) : (List.range n).map f = xs := by
  apply List.ext_getElem
  · rw [List.length_map, List.length_range, hlen]
  · intro i h1 h2
    rw [List.getElem_map, List.getElem_range, h i (hlen ▸ h2), List.getD_eq_getElem _ _ h2]

variable {stack : ℕ → ℕ} {desired : DesiredPhy} {p : PeerRates} {sup ext : List ℕ}

theorem apply_one (mem : ℕ → ℕ) (c : Move) (i : ℕ) :
    [c].foldl Move.apply mem i =
      if c.offset ≤ i ∧ i < c.offset + c.length then c.source.getD (i - c.offset) 0 else mem i := rfl

def firstList (sup : List ℕ) : List ℕ := if sup.length ≤ maxLenOfSupportedRates then sup else rateDefault

theorem length_firstList : (firstList sup).length = supLen sup := by
  unfold firstList supLen
  split_ifs <;> rfl

theorem supMove_eq : supMove sup = if 0 < sup.length then [⟨0, firstList sup, supLen sup⟩] else [] := by
  unfold supMove firstList supLen
  split_ifs <;> rfl

theorem supLen_le : supLen sup ≤ maxLenOfSupportedRates := by
  unfold supLen
  split_ifs with h
  · exact h
  · decide

theorem supLen_le_length : supLen sup ≤ sup.length := by
  unfold supLen
  split_ifs with h
  · exact le_rfl
  · simp only [maxLenOfSupportedRates] at h
    omega

theorem supLen_of_empty (h : ¬0 < sup.length) : supLen sup = 0 := by
  unfold supLen
  rw [if_pos (by omega)]
  omega

theorem inside_supMove : ∀ c ∈ supMove sup, c.Inside := by
  rw [supMove_eq]
  split_ifs with h
  · simp only [List.mem_singleton, forall_eq]
    exact .inr (by simpa using supLen_le)
  · simp

theorem covered_supMove {i : ℕ} : (∃ c ∈ supMove sup, c.Covers i) ↔ i < supLen sup := by
  rw [supMove_eq]
  split_ifs with h
  · simp [Move.Covers]
  · simp [supLen_of_empty h]

theorem apply_supMove (i : ℕ) :
    (supMove sup).foldl Move.apply stack i = if i < supLen sup then (firstList sup).getD i 0 else stack i := by
  rw [supMove_eq]
  split_ifs with h hi hi
  · rw [apply_one, if_pos ⟨Nat.zero_le _, by simpa using hi⟩, Nat.sub_zero]
  · rw [apply_one, if_neg fun hc => hi (by simpa using hc.2)]
  · rw [supLen_of_empty h] at hi
    exact absurd hi (Nat.not_lt_zero _)
  · rfl

theorem inside_extMove (hlen : ext.length < 256) (hext : 0 < ext.length)
    (hsum : ¬sup.length + ext.length ≤ maxLenOfSupportedRates) :
    (∀ c ∈ extMove sup ext, c.Inside) ↔
      ext.length = maxLenOfSupportedRates ∨ ext.length ≤ maxLenOfSupportedRates ∧ sup.length ≤ ext.length := by
  unfold extMove
  rw [if_pos hext, if_neg hsum]
  simp only [List.mem_singleton, forall_eq, Move.Inside]
  by_cases hm : ext.length ≤ maxLenOfSupportedRates
  · rw [toSize_of_le hm]
    omega
  · have hbig := toSize_of_gt (Nat.lt_of_not_le hm) hlen
    omega

theorem covered_extMove (hext : 0 < ext.length) (hsum : ¬sup.length + ext.length ≤ maxLenOfSupportedRates)
    (hm : ext.length ≤ maxLenOfSupportedRates) {i : ℕ} :
    (∃ c ∈ extMove sup ext, c.Covers i) ↔
      sup.length ≤ i ∧ i < sup.length + (maxLenOfSupportedRates - ext.length) := by
  unfold extMove
  rw [if_pos hext, if_neg hsum, toSize_of_le hm]
  simp only [List.mem_singleton, exists_eq_left, Move.Covers]

/-- **The model of the array.** As long as the copies stay inside, `supportedRates` is what is read from it. -/
theorem supportedRates_eq (hlen : ext.length < 256) (h : ∀ c ∈ moves sup ext, c.Inside) :
    supportedRates stack sup ext = (List.range (supportedRatesLen sup ext)).map (buffer stack sup ext) := by
  have hfirst : ∀ i < supLen sup, (supMove sup).foldl Move.apply stack i = (firstList sup).getD i 0 :=
    fun i hi => (apply_supMove i).trans (if_pos hi)
  unfold supportedRates supportedRatesLen buffer moves
  simp only [List.foldl_append]
  by_cases hext : 0 < ext.length
  · have hne : ext ≠ [] := List.ne_nil_of_length_pos hext
    simp only [if_neg hne, if_pos hext]
    by_cases hsum : sup.length + ext.length ≤ maxLenOfSupportedRates
    · have hsup : supLen sup = sup.length := if_pos (by omega)
      have hlist : firstList sup = sup := if_pos (by omega)
      simp only [extMove, if_pos hext, if_pos hsum, hsup]
      refine (map_range_eq List.length_append fun i hi => ?_).symm
      simp only [apply_one]
      by_cases hin : i < sup.length
      · rw [if_neg (by omega), hfirst i (hsup ▸ hin), hlist, List.getD_append _ _ _ _ hin]
      · rw [if_pos (by omega), List.getD_append_right _ _ _ _ (by omega)]
    · have hm : ext.length ≤ maxLenOfSupportedRates := by
        have := (inside_extMove hlen hext hsum).1 fun c hc => h c (List.mem_append_right _ hc)
        omega
      simp only [extMove, if_pos hext, if_neg hsum, toSize_of_le hm]
      refine List.map_congr_left fun i _ => ?_
      simp only [apply_one, apply_supMove]
      have hle : (firstList sup).length ≤ sup.length := length_firstList ▸ supLen_le_length
      change (if i < (firstList sup).length then (firstList sup).getD i 0 else _) = _
      rw [← length_firstList]
      split_ifs <;> first | rfl | omega
  · have hnil : ext = [] := List.eq_nil_of_length_eq_zero (by omega)
    simp only [hnil, extMove, if_neg (show ¬0 < ([] : List ℕ).length by simp), if_true, List.foldl_nil]
    exact (map_range_eq length_firstList hfirst).symm

theorem inside_iff (hlen : p.extRate.length < 256) :
    ((∀ c ∈ moves p.supRate p.extRate, c.Inside) ∧
      ∀ i < supportedRatesLen p.supRate p.extRate, ∃ c ∈ moves p.supRate p.extRate, c.Covers i) ↔ Fits p := by
  unfold moves Fits supportedRatesLen
  simp only [List.mem_append, or_and_right, exists_or, covered_supMove, or_imp, forall_and,
    and_iff_right inside_supMove]
  by_cases hext : 0 < p.extRate.length
  · have hne : p.extRate ≠ [] := List.ne_nil_of_length_pos hext
    rw [if_pos hext]
    by_cases hsum : p.supRate.length + p.extRate.length ≤ maxLenOfSupportedRates
    · refine iff_of_true ⟨?_, ?_⟩ (.inr (.inl hsum))
      · simp only [extMove, if_pos hext, if_pos hsum, List.mem_singleton, forall_eq]
        exact .inr hsum
      · have hsup : supLen p.supRate = p.supRate.length := if_pos (by omega)
        simp only [if_pos hsum, extMove, if_pos hext, hsup, List.mem_singleton, exists_eq_left, Move.Covers]
        omega
    · rw [inside_extMove hlen hext hsum, if_neg hsum]
      simp only [hne, hsum, false_or]
      constructor
      · rintro ⟨hin, hread⟩
        have hm : p.extRate.length ≤ maxLenOfSupportedRates := by omega
        have hlast := hread 11 (by decide)
        rw [covered_extMove hext hsum hm] at hlast
        have hsup : supLen p.supRate ≤ p.supRate.length ∧ (maxLenOfSupportedRates < p.supRate.length →
            supLen p.supRate = 8) :=
          ⟨supLen_le_length, fun h => if_neg (Nat.not_le.2 h)⟩
        simp only [maxLenOfSupportedRates] at hin hlast hsum hm hsup ⊢
        omega
      · rintro ⟨heq, hle⟩
        have hm : p.extRate.length ≤ maxLenOfSupportedRates := by omega
        refine ⟨.inr ⟨hm, heq.le⟩, fun i hi => ?_⟩
        rw [covered_extMove hext hsum hm, show supLen p.supRate = p.supRate.length from if_pos hle]
        omega
  · have hnil : p.extRate = [] := List.eq_nil_of_length_eq_zero (by omega)
    refine iff_of_true ⟨?_, fun i hi => .inl (by rwa [if_neg hext] at hi)⟩ (.inl hnil)
    simp [extMove, hnil]

/-! ### The recorded rates -/

theorem rateSlot_cck : ∀ x < 128, ∀ k < maxLenOfCCKRates,
    (rateSlot (x * 5) = some (modeCCK, k) ↔ cckRates[k]? = some x) := by
  decide

theorem rateSlot_ofdm : ∀ x < 128, ∀ k < maxLenOfOFDMRates,
    (rateSlot (x * 5) = some (modeOFDM, k) ↔ ofdmRates[k]? = some x) := by
  decide

theorem rateSlot_mode : ∀ x < 128, ∀ slot ∈ rateSlot (x * 5), slot.1 = modeCCK ∨ slot.1 = modeOFDM := by
  decide

theorem recordRate_slot (r : SupportMcs) (rate k : ℕ) :
    ((recordRate r rate).supportCCKMCS k = true ↔
      rateSlot (rate % 128 * 5) = some (modeCCK, k) ∨ r.supportCCKMCS k = true) ∧
    ((recordRate r rate).supportOFDMMCS k = true ↔
      rateSlot (rate % 128 * 5) = some (modeOFDM, k) ∨ r.supportOFDMMCS k = true) := by
  have hmode := rateSlot_mode (rate % 128) (Nat.mod_lt _ (by decide))
  unfold recordRate
  cases hslot : rateSlot (rate % 128 * 5) with
  | none => simp
  | some slot =>
    obtain ⟨mode, mcs⟩ := slot
    obtain rfl | rfl := hmode _ hslot
    · by_cases hk : k = mcs
      · simp [hk, modeCCK, modeOFDM]
      · simp [hk, Ne.symm hk, modeCCK, modeOFDM]
    · by_cases hk : k = mcs
      · simp [hk, modeCCK, modeOFDM]
      · simp [hk, Ne.symm hk, modeCCK, modeOFDM]

theorem foldl_recordRate (rates : List ℕ) (r : SupportMcs) (k : ℕ) :
    ((rates.foldl recordRate r).supportCCKMCS k = true ↔
      (∃ rate ∈ rates, rateSlot (rate % 128 * 5) = some (modeCCK, k)) ∨ r.supportCCKMCS k = true) ∧
    ((rates.foldl recordRate r).supportOFDMMCS k = true ↔
      (∃ rate ∈ rates, rateSlot (rate % 128 * 5) = some (modeOFDM, k)) ∨ r.supportOFDMMCS k = true) := by
  induction rates generalizing r with
  | nil => simp
  | cons rate rates ih =>
    obtain ⟨hcck, hofdm⟩ := recordRate_slot r rate k
    obtain ⟨ihcck, ihofdm⟩ := ih (recordRate r rate)
    rw [List.foldl_cons, ihcck, ihofdm, hcck, hofdm]
    simp only [List.mem_cons, exists_eq_or_imp]
    exact ⟨or_left_comm.trans or_assoc.symm, or_left_comm.trans or_assoc.symm⟩

def SameLegacy (r r' : SupportMcs) : Prop :=
  r'.supportCCKMCS = r.supportCCKMCS ∧ r'.supportOFDMMCS = r.supportOFDMMCS

theorem sameLegacy_recordVHT1 (ss1 : ℕ) (r : SupportMcs) : SameLegacy r (recordVHT1 ss1 r) := by
  unfold recordVHT1
  split_ifs <;> exact ⟨rfl, rfl⟩

theorem sameLegacy_recordVHT2 (ss2 : ℕ) (r : SupportMcs) : SameLegacy r (recordVHT2 ss2 r) := by
  unfold recordVHT2
  split_ifs <;> exact ⟨rfl, rfl⟩

theorem SameLegacy.trans {r r' r'' : SupportMcs} (h : SameLegacy r r') (h' : SameLegacy r' r'') :
    SameLegacy r r'' :=
  ⟨h'.1.trans h.1, h'.2.trans h.2⟩

theorem sameLegacy_recordVHT (desired : DesiredPhy) (vhtCap : Option (ℕ × ℕ)) (r : SupportMcs) :
    SameLegacy r (recordVHT desired vhtCap r) := by
  unfold recordVHT
  cases vhtCap with
  | none => exact ⟨rfl, rfl⟩
  | some ss =>
    dsimp only
    split_ifs
    · exact (sameLegacy_recordVHT2 _ _).trans (sameLegacy_recordVHT1 _ _)
    · exact sameLegacy_recordVHT1 _ _
    · exact ⟨rfl, rfl⟩
    · exact ⟨rfl, rfl⟩

theorem sameLegacy_rtmpSetSupportMCS (stack : ℕ → ℕ) (desired : DesiredPhy) (p : PeerRates) :
    SameLegacy ((supportedRates stack p.supRate p.extRate).foldl recordRate .zero)
      (rtmpSetSupportMCS stack desired p) := by
  unfold rtmpSetSupportMCS
  cases p.htCapability with
  | none => exact ⟨rfl, rfl⟩
  | some mcsSet => exact SameLegacy.trans ⟨rfl, rfl⟩ (sameLegacy_recordVHT _ _ _)

theorem supportedRates_of_fits (stack : ℕ → ℕ) (h : Fits p) :
    supportedRates stack p.supRate p.extRate = announced p := by
  unfold supportedRates announced
  by_cases hext : p.extRate = []
  · rw [if_pos hext, hext, List.append_nil]
    refine (List.take_of_length_le ?_).symm
    exact length_firstList.trans_le supLen_le
  · rw [if_neg hext]
    by_cases hsum : p.supRate.length + p.extRate.length ≤ maxLenOfSupportedRates
    · rw [if_pos hsum, if_pos (by omega), List.take_of_length_le (by simpa using hsum)]
    · obtain ⟨heq, hle⟩ := (h.resolve_left hext).resolve_left hsum
      rw [if_neg hsum, if_pos hle]
      refine map_range_eq ?_ fun i hi => ?_
      · rw [List.length_take, List.length_append]
        omega
      · have htake : ((p.supRate ++ p.extRate).take maxLenOfSupportedRates).getD i 0 =
            (p.supRate ++ p.extRate).getD i 0 := by
          simp only [List.getD_eq_getElem?_getD, List.getElem?_take_of_lt hi]
        rw [htake]
        by_cases hin : i < p.supRate.length
        · rw [if_pos hin, List.getD_append _ _ _ _ hin]
        · rw [if_neg hin, if_neg hin, if_pos (by omega), List.getD_append_right _ _ _ _ (by omega)]

theorem recorded_iff (stack : ℕ → ℕ) (desired : DesiredPhy) (p : PeerRates) (h : Fits p) :
    (∀ k < maxLenOfCCKRates, (rtmpSetSupportMCS stack desired p).supportCCKMCS k = true ↔
      ∃ rate ∈ announced p, cckRates[k]? = some (rate % 128)) ∧
    ∀ k < maxLenOfOFDMRates, (rtmpSetSupportMCS stack desired p).supportOFDMMCS k = true ↔
      ∃ rate ∈ announced p, ofdmRates[k]? = some (rate % 128) := by
  obtain ⟨hcck, hofdm⟩ := sameLegacy_rtmpSetSupportMCS stack desired p
  rw [hcck, hofdm, supportedRates_of_fits stack h]
  have hlt : ∀ rate : ℕ, rate % 128 < 128 := fun rate => Nat.mod_lt _ (by decide)
  constructor
  · intro k hk
    rw [(foldl_recordRate _ _ k).1]
    simp only [rateSlot_cck _ (hlt _) k hk, SupportMcs.zero, Bool.false_eq_true, or_false]
  · intro k hk
    rw [(foldl_recordRate _ _ k).2]
    simp only [rateSlot_ofdm _ (hlt _) k hk, SupportMcs.zero, Bool.false_eq_true, or_false]

/-- **A peer's rates are recorded exactly**, and inside the array, for the lists that fit. -/
theorem recordsExactly_iff (stack : ℕ → ℕ) (desired : DesiredPhy) (p : PeerRates)
    (hlen : p.extRate.length < 256) : RecordsExactly stack desired p ↔ Fits p := by
  constructor
  · intro h
    exact (inside_iff hlen).1 ⟨h.writes, h.reads⟩
  · intro h
    obtain ⟨hwrites, hreads⟩ := (inside_iff hlen).2 h
    obtain ⟨hcck, hofdm⟩ := recorded_iff stack desired p h
    exact ⟨hwrites, hreads, hcck, hofdm⟩

def peer11g : PeerRates := ⟨[0x82, 0x84, 0x8b, 0x96, 12, 18, 24, 36], [48, 72, 96, 108], none, none⟩

theorem recordsExactly_peer11g :
    peer11g.extRate.length < 256 ∧ (RecordsExactly (fun _ => 0) ⟨[], false, 1⟩ peer11g ↔ Fits peer11g) :=
  ⟨by decide, recordsExactly_iff (fun _ => 0) ⟨[], false, 1⟩ peer11g (by decide)⟩

/-- Lists of 8 and 5 rates: seven octets are copied to the last four of the array. -/
theorem not_recordsExactly :
    ¬RecordsExactly (fun _ => 0) ⟨[], false, 1⟩
      ⟨[0x82, 0x84, 0x8b, 0x96, 12, 18, 24, 36], [48, 72, 96, 108, 108], none, none⟩ := by
  intro h
  exact absurd h.writes (by decide)

end Mt7610u.RateCtrl
