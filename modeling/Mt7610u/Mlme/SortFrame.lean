import Mt7610u.Mlme.SsidSort

/-! # What choosing candidates does to the scan table

The table of candidates is filled by copying entries, pointers included, and is initialised by the next
call, which wipes the buffers that its slots point to. -/

namespace Mt7610u.Mlme

open Lib Lib.Runs

/-- The scan table and the table of candidates, whose entries point into the same memory. -/
structure Tables where
  scanTab : BssTable
  outTab : BssTable
  shared : outTab.heap = scanTab.heap

/-- A call of `BssTableSsidSort`. -/
structure SortCall where
  cfg : StaConfig
  ssid : ℕ → Byte
  ssidLen : ℕ
  tmp : Bool

def SortCall.chosen (c : SortCall) (scan : BssTable) : List ℕ := Mlme.chosen c.cfg c.ssid c.ssidLen scan

theorem SortCall.lt_of_mem_chosen (c : SortCall) {scan : BssTable} {i : ℕ} (hi : i ∈ c.chosen scan) :
    i < scan.bssNr := by
  unfold SortCall.chosen Mlme.chosen at hi
  split_ifs at hi
  · cases hi
  · exact List.mem_range.1 (List.mem_filter.1 hi).1

namespace Tables

/-- `BssTableSsidSort` on the two tables. -/
def sort (s : Tables) (c : SortCall) : Tables where
  scanTab := { s.scanTab with
    heap := (BssTable.bssTableSsidSort c.cfg c.ssid c.ssidLen c.tmp s.scanTab s.outTab).heap }
  outTab := BssTable.bssTableSsidSort c.cfg c.ssid c.ssidLen c.tmp s.scanTab s.outTab
  shared := rfl

/-- Every entry of the scan table is as it was, and so is the buffer that it points to. -/
def Undisturbed (s s' : Tables) : Prop :=
  s'.scanTab.bssNr = s.scanTab.bssNr ∧ ∀ i < s.scanTab.bssNr,
    s'.scanTab.bssEntry i = s.scanTab.bssEntry i ∧
      s'.scanTab.buffer (s.scanTab.ptr i) = s.scanTab.buffer (s.scanTab.ptr i)

def Blank (m : ℕ → Byte) : Prop := ∀ i < maxVieLen, m i = 0

/-- The probe response of entry `i` of the scan table is blank, if there is one. -/
def BlankAt (s : Tables) (i : ℕ) : Prop := ∀ a, s.scanTab.ptr i = some a → Blank (s.scanTab.heap a)

/-- A slot of the table of candidates that points to the buffer of an entry of the scan table finds it
blank. -/
def OutBlank (s : Tables) : Prop :=
  ∀ k < maxLenOfBssTable, ∀ i < s.scanTab.bssNr, (s.outTab.ptr k).isSome →
    s.outTab.ptr k = s.scanTab.ptr i → s.BlankAt i

/-! ### One call -/

theorem zeroVie_eq_self_iff {m : ℕ → Byte} : BssTable.zeroVie m = m ↔ Blank m := by
  constructor
  · intro h i hi
    rw [← h]
    exact if_pos hi
  · intro h
    funext i
    unfold BssTable.zeroVie
    split_ifs with hi
    · exact (h i hi).symm
    · rfl

section

variable {s : Tables} (hscan : s.scanTab.bssNr ≤ maxLenOfBssTable) (c : SortCall)
include hscan

theorem heap_sort (a : ℕ) : (s.sort c).scanTab.heap a =
    if ∃ k < maxLenOfBssTable, s.outTab.ptr k = some a then BssTable.zeroVie (s.scanTab.heap a)
    else s.scanTab.heap a := by
  have hheap : (s.sort c).scanTab.heap = s.outTab.bssTableInit.heap := by
    unfold sort
    simp only []
    rw [BssTable.bssTableSsidSort_eq hscan]
    unfold BssTable.bssTableSortByRssi BssTable.unsorted
    split_ifs
    · exact (BssTable.appendAll_spec _ _).2.2.1
    · exact (BssTable.appendAll_spec _ _).2.2.1
  rw [hheap, s.outTab.bssTableInit_spec.2.2 a, s.shared]

/-- **A call leaves the scan table alone** if and only if the table of candidates points to no probe
response of it. -/
theorem undisturbed_sort_iff : s.Undisturbed (s.sort c) ↔ s.OutBlank := by
  have hentry : ∀ i, (s.sort c).scanTab.bssEntry i = s.scanTab.bssEntry i := fun _ => rfl
  constructor
  · rintro ⟨-, h⟩ k hk i hi - hptr a ha
    have hbuf := (h i hi).2
    rw [ha] at hbuf
    have hheap := heap_sort hscan c a
    rw [if_pos ⟨k, hk, hptr.trans ha⟩] at hheap
    exact zeroVie_eq_self_iff.1 (hheap.symm.trans hbuf)
  · intro h
    refine ⟨rfl, fun i hi => ⟨hentry i, ?_⟩⟩
    cases ha : s.scanTab.ptr i with
    | none => rfl
    | some a =>
      refine (heap_sort hscan c a).trans ?_
      split_ifs with hk
      · obtain ⟨k, hk, hptr⟩ := hk
        exact zeroVie_eq_self_iff.2 (h k hk i hi (by rw [hptr]; rfl) (hptr.trans ha.symm) a ha)
      · rfl

/-- The buffers that the table of candidates points to after a call: those of the chosen entries, and those
that the slots behind them pointed to before. -/
theorem ptr_sort (p : Option ℕ) : (∃ k < maxLenOfBssTable, (s.sort c).outTab.ptr k = p) ↔
    (∃ i ∈ c.chosen s.scanTab, s.scanTab.ptr i = p) ∨
      ∃ k < maxLenOfBssTable, (c.chosen s.scanTab).length ≤ k ∧ s.outTab.ptr k = p := by
  set u := BssTable.unsorted c.cfg c.ssid c.ssidLen s.scanTab s.outTab with hu
  have hsort : (s.sort c).outTab = BssTable.bssTableSortByRssi c.tmp u :=
    BssTable.bssTableSsidSort_eq hscan c.tmp s.outTab
  have hlen : (c.chosen s.scanTab).length ≤ maxLenOfBssTable := by
    refine le_trans ?_ hscan
    unfold SortCall.chosen Mlme.chosen
    split_ifs
    · exact Nat.zero_le _
    · exact (List.length_filter_le _ _).trans_eq List.length_range
  obtain ⟨-, hnr, -, hrest⟩ := BssTable.appendAll_spec s.outTab.bssTableInit
    ((Mlme.chosen c.cfg c.ssid c.ssidLen s.scanTab).map s.scanTab.bssEntry)
  rw [BssTable.bssTableInit_nr, Nat.zero_add, List.length_map] at hnr hrest
  have hnr' : (s.sort c).outTab.bssNr = (c.chosen s.scanTab).length := by
    rw [hsort]
    unfold BssTable.bssTableSortByRssi
    split_ifs
    · exact hnr
    · exact hnr
  -- in front lie the chosen entries in some order, behind them what was there
  have hfront : ∀ e, e ∈ (s.sort c).outTab.entries ↔ ∃ i ∈ c.chosen s.scanTab, s.scanTab.bssEntry i = e := by
    intro e
    rw [hsort, (BssTable.entries_sort_perm _ _).mem_iff, hu, BssTable.entries_unsorted, List.mem_map]
    rfl
  have hback : ∀ k, (c.chosen s.scanTab).length ≤ k → (s.sort c).outTab.ptr k = s.outTab.ptr k := by
    intro k hk
    rw [← s.outTab.bssTableInit_spec.2.1 k]
    unfold BssTable.ptr
    rw [← hrest k hk, hsort]
    unfold BssTable.bssTableSortByRssi
    split_ifs
    · show (ExchangeSort.sort (fun b => b.rssi.toInt) u.bssNr u.bssEntry k).pVarIeFromProbRsp = _
      rw [(ExchangeSort.rearranged_sort _ u.bssNr u.bssEntry).eq_of_outside (Or.inr (hnr.trans_le hk))]
      rfl
    · rfl
  have hmem : ∀ e, e ∈ (s.sort c).outTab.entries ↔
      ∃ k < (c.chosen s.scanTab).length, (s.sort c).outTab.bssEntry k = e := by
    intro e
    unfold BssTable.entries
    rw [List.mem_map, hnr']
    simp only [List.mem_range]
  constructor
  · rintro ⟨k, hk, rfl⟩
    by_cases hkn : k < (c.chosen s.scanTab).length
    · obtain ⟨i, hi, he⟩ := (hfront _).1 ((hmem _).2 ⟨k, hkn, rfl⟩)
      exact Or.inl ⟨i, hi, congrArg BssEntry.pVarIeFromProbRsp he⟩
    · exact Or.inr ⟨k, hk, not_lt.1 hkn, (hback k (not_lt.1 hkn)).symm⟩
  · rintro (⟨i, hi, rfl⟩ | ⟨k, hk, hkn, rfl⟩)
    · obtain ⟨k, hk, he⟩ := (hmem _).1 ((hfront _).2 ⟨i, hi, rfl⟩)
      exact ⟨k, hk.trans_le hlen, congrArg BssEntry.pVarIeFromProbRsp he⟩
    · exact ⟨k, hk, hback k hkn⟩

theorem blankAt_sort_iff (h : s.OutBlank) {i : ℕ} (hi : i < s.scanTab.bssNr) :
    (s.sort c).BlankAt i ↔ s.BlankAt i := by
  have hbuf := (((undisturbed_sort_iff hscan c).2 h).2 i hi).2
  refine forall_congr' fun a => imp_congr_right fun ha => ?_
  have hptr : s.scanTab.ptr i = some a := ha
  rw [hptr] at hbuf
  show Blank ((s.sort c).scanTab.heap a) ↔ _
  rw [show (s.sort c).scanTab.heap a = s.scanTab.heap a from hbuf]

theorem outBlank_sort_iff (h : s.OutBlank) : (s.sort c).OutBlank ↔ ∀ i ∈ c.chosen s.scanTab, s.BlankAt i := by
  constructor
  · intro hout i hi a ha
    obtain ⟨k, hk, hptr⟩ := (ptr_sort hscan c (some a)).2 (Or.inl ⟨i, hi, ha⟩)
    have hlt := c.lt_of_mem_chosen hi
    exact (blankAt_sort_iff hscan c h hlt).1 (hout k hk i hlt (by rw [hptr]; rfl) (hptr.trans ha.symm)) a ha
  · intro hchosen k hk i hi hsome hptr
    refine (blankAt_sort_iff hscan c h hi).2 ?_
    rcases (ptr_sort hscan c _).1 ⟨k, hk, rfl⟩ with ⟨j, hj, hjk⟩ | ⟨k', hk', -, hk''⟩
    · intro a ha
      exact hchosen j hj a ((hjk.trans hptr).trans ha)
    · exact h k' hk' i hi (by rw [hk'']; exact hsome) (hk''.trans hptr)

end

/-! ### Repeated calls -/

theorem undisturbed_congr {s s' s'' : Tables} (h : s.Undisturbed s') : s'.Undisturbed s'' ↔ s.Undisturbed s'' := by
  obtain ⟨hnr, hsame⟩ := h
  unfold Undisturbed
  rw [hnr]
  refine and_congr_right fun _ => forall_congr' fun i => imp_congr_right fun hi => ?_
  obtain ⟨hentry, hbuf⟩ := hsame i hi
  have hptr : s'.scanTab.ptr i = s.scanTab.ptr i := congrArg BssEntry.pVarIeFromProbRsp hentry
  rw [hentry, hptr, hbuf]

/-- **Which calls leave the scan table alone.** For every scan table and every content of the table of
candidates, no call of a sequence changes an entry of the scan table or a buffer that one points to, if and
only if the table of candidates points to no probe response of the scan table at the first call, and every
call but the last chooses only BSSs whose probe responses are blank. -/
theorem undisturbed_iff (calls : List SortCall) (s : Tables) (hscan : s.scanTab.bssNr ≤ maxLenOfBssTable) :
    (∀ pre, pre <+: calls → s.Undisturbed (run sort s pre)) ↔
      (calls ≠ [] → s.OutBlank) ∧ ∀ c ∈ calls.dropLast, ∀ i ∈ c.chosen s.scanTab, s.BlankAt i := by
  induction calls generalizing s with
  | nil =>
    refine ⟨fun _ => ⟨fun h => absurd rfl h, fun c hc => (by cases hc)⟩, fun _ pre hpre => ?_⟩
    rw [List.prefix_nil.1 hpre]
    exact ⟨rfl, fun _ _ => ⟨rfl, rfl⟩⟩
  | cons c calls ih =>
    have hfirst : (∀ pre, pre <+: c :: calls → s.Undisturbed (run sort s pre)) ↔
        s.OutBlank ∧ ∀ pre, pre <+: calls → (s.sort c).Undisturbed (run sort (s.sort c) pre) := by
      rw [← undisturbed_sort_iff hscan c]
      constructor
      · intro h
        have h1 := h [c] ⟨calls, rfl⟩
        exact ⟨h1, fun pre hpre => (undisturbed_congr h1).2
          (h (c :: pre) (List.cons_prefix_cons.2 ⟨rfl, hpre⟩))⟩
      · rintro ⟨h1, hrest⟩ pre hpre
        cases pre with
        | nil => exact ⟨rfl, fun _ _ => ⟨rfl, rfl⟩⟩
        | cons d pre =>
          obtain ⟨rfl, htail⟩ := List.cons_prefix_cons.1 hpre
          exact (undisturbed_congr h1).1 (hrest pre htail)
    rw [hfirst, ih (s.sort c) hscan]
    have hsame : s.OutBlank → ∀ d : SortCall, (∀ i ∈ d.chosen s.scanTab, (s.sort c).BlankAt i) ↔
        ∀ i ∈ d.chosen s.scanTab, s.BlankAt i := fun hout d =>
      forall_congr' fun i => imp_congr_right fun hi =>
        blankAt_sort_iff hscan c hout (d.lt_of_mem_chosen hi)
    cases calls with
    | nil => simp
    | cons d calls =>
      rw [List.dropLast_cons_cons, List.forall_mem_cons]
      constructor
      · rintro ⟨hout, hnext, hrest⟩
        refine ⟨fun _ => hout, (outBlank_sort_iff hscan c hout).1 (hnext (List.cons_ne_nil _ _)),
          fun e he => (hsame hout e).1 (hrest e he)⟩
      · rintro ⟨hout, hchosen, hrest⟩
        have hout := hout (List.cons_ne_nil _ _)
        exact ⟨hout, fun _ => (outBlank_sort_iff hscan c hout).2 hchosen,
          fun e he => (hsame hout e).2 (hrest e he)⟩

def sampleTables : Tables where
  scanTab :=
    { BssTable.sampleScan (BssTable.sampleBss false) with
      bssEntry := fun _ =>
        { BssTable.sampleBss false with varIeFromProbeRspLen := 1, pVarIeFromProbRsp := some 0 }
      heap := fun _ => mem [0x30#8] }
  outTab := { BssTable.fresh fun _ => none with heap := fun _ => mem [0x30#8] }
  shared := rfl

def sampleCall : SortCall := ⟨BssTable.sampleConfig 0 0 1, mem [0x61#8], 1, true⟩

theorem undisturbed_sample : sampleTables.Undisturbed (run sort sampleTables [sampleCall]) :=
  (undisturbed_iff [sampleCall] sampleTables (by decide)).2
    ⟨fun _ k _ i _ hsome => (by cases hsome), fun c hc => (by cases hc)⟩ [sampleCall] (List.prefix_refl _)

set_option maxRecDepth 4000 in
/-- The second call wipes the probe response that the first has copied the address of. -/
theorem not_undisturbed : ¬ ∀ pre, pre <+: [sampleCall, sampleCall] →
    sampleTables.Undisturbed (run sort sampleTables pre) := by
  intro h
  have hbuf := ((h _ (List.prefix_refl _)).2 0 (by decide)).2
  have h0 := congrFun hbuf 0
  revert h0
  decide

end Tables

end Mt7610u.Mlme
