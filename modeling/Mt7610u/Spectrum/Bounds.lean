import Mathlib.Data.List.Induction
import Mt7610u.Spectrum.Parser

/-! # Where the spectrum-management parser reads -/

namespace Mt7610u.Spectrum

open Mt7610u.Lib Mt7610u.Lib.Noted Mt7610u.Lib.Elements

/-! ### What is asked of the parser -/

structure Loop where
  eid : Byte
  start : ℕ
  fields : ℕ → List ℕ

def Loop.InElements (l : Loop) (f : Frame) : Prop :=
  ∀ q ∈ complete f.msg f.msgLen l.start, f.msg q = l.eid → ∀ i ∈ l.fields q, q + 2 ≤ i ∧ i < next f.msg q

def measureReqLoop (cfg : Config) (f : Frame) : Loop :=
  ⟨IE_MEASUREMENT_REQUEST, 27, fun q => (takeMeasureReq f q cfg.stack).reads⟩

def measureReportLoop (f : Frame) : Loop :=
  ⟨IE_MEASUREMENT_REPORT, 27, fun q => (takeMeasureReport f q (⟨0, 0, 0⟩, .zero)).reads⟩

def tpcReqLoop : Loop := ⟨IE_TPC_REQUEST, 27, fun _ => []⟩

def tpcRepLoop (f : Frame) : Loop := ⟨IE_TPC_REPORT, 27, fun q => (takeTpcRep f q ⟨0, 0⟩).reads⟩

def chSwAnnLoop (f : Frame) : Loop :=
  ⟨IE_CHANNEL_SWITCH_ANNOUNCEMENT, 26, fun q => (takeChSwAnn f q ⟨0, 0, 0⟩).reads⟩

def loopOf (cfg : Config) (f : Frame) : Option Loop :=
  if cfg.bIEEE80211H = false then none
  else if f.msg 25 = SPEC_MRQ then some (measureReqLoop cfg f)
  else if f.msg 25 = SPEC_MRP then if cfg.canAlloc then some (measureReportLoop f) else none
  else if f.msg 25 = SPEC_TPCRQ then some tpcReqLoop
  else if f.msg 25 = SPEC_TPCRP then some (tpcRepLoop f)
  else if f.msg 25 = SPEC_CHANNEL_SWITCH then some (chSwAnnLoop f)
  else none

/-- An element within the frame that has the number and at least `k` octets in its body. -/
def HasElement (f : Frame) (eid : Byte) (start k q : ℕ) : Prop :=
  q ∈ complete f.msg f.msgLen start ∧ f.msg q = eid ∧ k ≤ len f.msg q

def Accepted.Present (f : Frame) : Accepted → Prop
  | .channelSwitch newChannel secondary =>
    f.msg 26 = IE_CHANNEL_SWITCH_ANNOUNCEMENT ∧ f.msg 27 = 3 ∧ 31 ≤ f.msgLen ∧ newChannel = f.msg 29 ∧ secondary = 0
  | .chSwAnn addr3 info =>
    22 ≤ f.msgLen ∧ addr3 = readAt f.msg 16 6 ∧
      ∃ q, HasElement f IE_CHANNEL_SWITCH_ANNOUNCEMENT 26 3 q ∧ info = ⟨f.msg (q + 2), f.msg (q + 3), f.msg (q + 4)⟩
  | .measureReq addr2 dialogToken info req =>
    27 ≤ f.msgLen ∧ addr2 = readAt f.msg 10 6 ∧ dialogToken = f.msg 26 ∧
      ∃ q, HasElement f IE_MEASUREMENT_REQUEST 27 14 q ∧
        info = ⟨f.msg (q + 2), f.msg (q + 3), f.msg (q + 4)⟩ ∧
        req = ⟨f.msg (q + 5), SWAP64 (load 64 (readAt f.msg (q + 6) 8)), SWAP16 (load 16 (readAt f.msg (q + 14) 2))⟩
  | .measureReport addr1 addr2 dialogToken info report =>
    27 ≤ f.msgLen ∧ addr1 = readAt f.msg 4 6 ∧ addr2 = readAt f.msg 10 6 ∧ dialogToken = f.msg 26 ∧
      ∃ q, HasElement f IE_MEASUREMENT_REPORT 27 3 q ∧
        info = ⟨f.msg (q + 2), f.msg (q + 3), f.msg (q + 4)⟩ ∧
        (info.reportType.toNat < 3 → 15 ≤ len f.msg q ∧ report.chNum = f.msg (q + 5) ∧
          report.measureStartTime = readAt f.msg (q + 6) 8 ∧ report.measureDuration = readAt f.msg (q + 14) 2 ∧
          report.rpiDensity.head? = some (f.msg (q + 16))) ∧
        (info.reportType = RM_RPI_HISTOGRAM → 22 ≤ len f.msg q ∧ report.rpiDensity.take 8 = readAt f.msg (q + 16) 8)
  | .tpcReq addr2 dialogToken =>
    27 ≤ f.msgLen ∧ addr2 = readAt f.msg 10 6 ∧ dialogToken = f.msg 26 ∧ ∃ q, HasElement f IE_TPC_REQUEST 27 0 q
  | .tpcRep dialogToken info =>
    27 ≤ f.msgLen ∧ dialogToken = f.msg 26 ∧
      ∃ q, HasElement f IE_TPC_REPORT 27 2 q ∧ info = ⟨f.msg (q + 2), f.msg (q + 3)⟩

/-- **What is asked of the parser**: it reads no octet behind the frame and no field behind the element that has it,
and what it accepts was in the frame. That it comes to an end is in its definition, a total function. -/
structure StaysInside (cfg : Config) (f : Frame) : Prop where
  frame : ∀ i ∈ (peerSpectrumAction cfg f).reads, i < f.msgLen
  element : ∀ l, loopOf cfg f = some l → l.InElements f
  present : ∀ a ∈ (peerSpectrumAction cfg f).val, a.Present f

/-! ### When it does so -/

/-- From `start` on the frame has elements, those with the number long enough, and then the first two octets of an
element that is cut off. -/
structure WellFormed (f : Frame) (eid : Byte) (start : ℕ) (need : ℕ → ℕ) : Prop where
  long : ∀ q ∈ complete f.msg f.msgLen start, f.msg q = eid → need q ≤ len f.msg q
  cut : rest f.msg f.msgLen start + 1 < f.msgLen

def reportNeed (f : Frame) (q : ℕ) : ℕ :=
  if f.msg (q + 4) = RM_BASIC ∨ f.msg (q + 4) = RM_CCA then 15
  else if f.msg (q + 4) = RM_RPI_HISTOGRAM then 22
  else 3

/-- A frame for which the parser stays inside: it has its category and action, and, with 802.11h on, the elements its
action asks for, a channel switch announcement its fixed places too. -/
structure Fits (cfg : Config) (f : Frame) : Prop where
  header : 26 ≤ f.msgLen
  measureReq : cfg.bIEEE80211H → f.msg 25 = SPEC_MRQ → WellFormed f IE_MEASUREMENT_REQUEST 27 fun _ => 14
  measureReport : cfg.bIEEE80211H → f.msg 25 = SPEC_MRP → cfg.canAlloc →
    WellFormed f IE_MEASUREMENT_REPORT 27 (reportNeed f)
  tpcReq : cfg.bIEEE80211H → f.msg 25 = SPEC_TPCRQ → WellFormed f IE_TPC_REQUEST 27 fun _ => 0
  tpcRep : cfg.bIEEE80211H → f.msg 25 = SPEC_TPCRP → WellFormed f IE_TPC_REPORT 27 fun _ => 2
  channelSwitch : cfg.bIEEE80211H → f.msg 25 = SPEC_CHANNEL_SWITCH →
    31 ≤ f.msgLen ∧ WellFormed f IE_CHANNEL_SWITCH_ANNOUNCEMENT 26 fun _ => 3

/-! ### The fields of an element -/

section

variable {f : Frame} {q : ℕ}

theorem reads_takeChSwAnn (s : ChSwAnnInfo) : (takeChSwAnn f q s).reads = List.range' (q + 2) 3 := rfl

theorem reads_takeMeasureReq (s : MeasureReqInfo × MeasureReq) :
    (takeMeasureReq f q s).reads = List.range' (q + 2) 14 := rfl

theorem reads_takeTpcRep (s : TpcReportInfo) : (takeTpcRep f q s).reads = List.range' (q + 2) 2 := rfl

theorem reads_takeReportOf (report : MeasureReport) :
    (takeReportOf f q (f.msg (q + 4)) report).reads = List.range' (q + 5) (reportNeed f q - 3) := by
  unfold takeReportOf reportNeed
  by_cases hbasic : f.msg (q + 4) = RM_BASIC
  · rw [if_pos hbasic, if_pos (Or.inl hbasic)]
    rfl
  rw [if_neg hbasic]
  by_cases hcca : f.msg (q + 4) = RM_CCA
  · rw [if_pos hcca, if_pos (Or.inr hcca)]
    rfl
  rw [if_neg hcca, if_neg (not_or.2 ⟨hbasic, hcca⟩)]
  by_cases hrpi : f.msg (q + 4) = RM_RPI_HISTOGRAM
  · rw [if_pos hrpi, if_pos hrpi]
    rfl
  · rw [if_neg hrpi, if_neg hrpi]
    rfl

theorem three_le_reportNeed : 3 ≤ reportNeed f q := by
  unfold reportNeed
  split_ifs <;> decide

theorem reads_takeMeasureReport (s : MeasureReportInfo × MeasureReport) :
    (takeMeasureReport f q s).reads = List.range' (q + 2) (reportNeed f q) := by
  have hsplit : reportNeed f q = 3 + (reportNeed f q - 3) := by
    have := @three_le_reportNeed f q
    omega
  rw [hsplit, ← List.range'_append_1]
  show [q + 2, q + 3, q + 4] ++ ((takeReportOf f q (f.msg (q + 4)) s.2).reads ++ []) = _
  rw [List.append_nil, reads_takeReportOf]
  rfl

theorem forall_body_lt {k : ℕ} : (∀ i ∈ List.range' (q + 2) k, q + 2 ≤ i ∧ i < next f.msg q) ↔ k ≤ len f.msg q := by
  simp only [List.mem_range'_1]
  unfold next
  constructor
  · intro h
    by_contra hlt
    have := h (q + 2 + (k - 1)) (by omega)
    omega
  · intro h i hi
    omega

end

/-! ### The loop -/

section eidLoop

variable {α : Type} {f : Frame} {eid : Byte} {take : ℕ → α → Noted α} {start : ℕ} {out : α} {need : ℕ → ℕ}

theorem val_eidSwitch (q : ℕ) (s : Bool × α) :
    (eidSwitch f eid take q s).val = if f.msg q = eid then (true, (take q s.2).val) else s := by
  unfold eidSwitch
  rw [val_bind, val_fetch, val_ite]
  rfl

theorem reads_eidSwitch (q : ℕ) (s : Bool × α) :
    (eidSwitch f eid take q s).reads = q :: if f.msg q = eid then (take q s.2).reads else [] := by
  unfold eidSwitch
  rw [reads_bind, val_fetch, reads_ite, reads_bind, reads_pure, reads_pure, List.append_nil]
  rfl

theorem mem_reads_eidLoop (htake : ∀ q s, (take q s).reads = List.range' (q + 2) (need q)) {i : ℕ} :
    i ∈ (eidLoop f eid take start out).reads ↔
      (∃ q ∈ complete f.msg f.msgLen start, i = q + 1 ∨ i = q ∨ f.msg q = eid ∧ i ∈ List.range' (q + 2) (need q)) ∨
      i = rest f.msg f.msgLen start + 1 := by
  unfold eidLoop
  rw [@mem_reads_walk _ _ _ _ _ _ fun q => q :: if f.msg q = eid then List.range' (q + 2) (need q) else []]
  · simp only [List.mem_cons, List.mem_ite_nil_right]
  · intro q s
    rw [reads_eidSwitch, htake]

/-- **Where the loop reads**: it stays inside the frame and the elements exactly if these are well formed. -/
theorem wellFormed_iff (htake : ∀ q s, (take q s).reads = List.range' (q + 2) (need q)) :
    WellFormed f eid start need ↔
      (∀ i ∈ (eidLoop f eid take start out).reads, i < f.msgLen) ∧
      ∀ q ∈ complete f.msg f.msgLen start, f.msg q = eid →
        ∀ i ∈ List.range' (q + 2) (need q), q + 2 ≤ i ∧ i < next f.msg q := by
  constructor
  · intro h
    have hlong : ∀ q ∈ complete f.msg f.msgLen start, f.msg q = eid →
        ∀ i ∈ List.range' (q + 2) (need q), q + 2 ≤ i ∧ i < next f.msg q :=
      fun q hq he => forall_body_lt.2 (h.long q hq he)
    refine ⟨fun i hi => ?_, hlong⟩
    rcases (mem_reads_eidLoop htake).1 hi with ⟨q, hq, hi⟩ | rfl
    · have hle := (le_of_mem hq).2.1
      have hlt := lt_next f.msg q
      rcases hi with rfl | rfl | ⟨he, hi⟩
      · omega
      · omega
      · exact lt_of_lt_of_le (hlong q hq he i hi).2 hle
    · exact h.cut
  · rintro ⟨hreads, helem⟩
    exact ⟨fun q hq he => forall_body_lt.1 (helem q hq he), hreads _ ((mem_reads_eidLoop htake).2 (Or.inr rfl))⟩

theorem val_eidLoop (h : (eidLoop f eid take start out).val.1 = true) :
    ∃ q ∈ complete f.msg f.msgLen start, f.msg q = eid ∧
      ∃ s, (eidLoop f eid take start out).val.2 = (take q s).val := by
  unfold eidLoop at h ⊢
  rw [val_walk] at h ⊢
  generalize complete f.msg f.msgLen start = l at h ⊢
  induction l using List.reverseRecOn with
  | nil => exact absurd h Bool.false_ne_true
  | append_singleton l q ih =>
    rw [List.foldl_append, List.foldl_cons, List.foldl_nil, val_eidSwitch] at h ⊢
    by_cases he : f.msg q = eid
    · rw [if_pos he]
      exact ⟨q, List.mem_append_right _ (List.mem_singleton_self q), he, _, rfl⟩
    · rw [if_neg he] at h ⊢
      obtain ⟨q', hq', hrest⟩ := ih h
      exact ⟨q', List.mem_append_left _ hq', hrest⟩

end eidLoop

/-! ### The handlers -/

section

variable {cfg : Config} {f : Frame}

theorem mem_reads_tokenLoop {α : Type} {eid : Byte} {take : ℕ → α → Noted α} {out : α} {i : ℕ} :
    i ∈ (tokenLoop f eid take out).reads ↔ i = 26 ∨ i ∈ (eidLoop f eid take 27 out).reads := by
  unfold tokenLoop
  simp [LENGTH_802_11]

theorem forall_reads_bind {α β : Type} {x : Noted α} {g : α → Noted β} {n : ℕ} (hg : ∀ i ∈ (g x.val).reads, i < 26)
    (hn : 26 ≤ n) : (∀ i ∈ (x >>= g).reads, i < n) ↔ ∀ i ∈ x.reads, i < n := by
  rw [reads_bind, List.forall_mem_append, and_iff_left_iff_imp]
  intro _ i hi
  exact lt_of_lt_of_le (hg i hi) hn

theorem forall_reads_tokenLoop {α : Type} {eid : Byte} {take : ℕ → α → Noted α} {out : α} {need : ℕ → ℕ}
    (htake : ∀ q s, (take q s).reads = List.range' (q + 2) (need q)) :
    (∀ i ∈ (tokenLoop f eid take out).reads, i < f.msgLen) ↔
      ∀ i ∈ (eidLoop f eid take 27 out).reads, i < f.msgLen := by
  simp only [mem_reads_tokenLoop, or_imp, forall_and, forall_eq]
  refine and_iff_right_of_imp fun h => ?_
  have hrest := h _ ((mem_reads_eidLoop htake).2 (Or.inr rfl))
  have hle : 27 ≤ rest f.msg f.msgLen 27 := le_rest
  omega

/-! ### Where each action reads -/

theorem wellFormed_measureReq (cfg : Config) (hn : 26 ≤ f.msgLen) :
    WellFormed f IE_MEASUREMENT_REQUEST 27 (fun _ => 14) ↔
      (∀ i ∈ (peerMeasureReqAction cfg f).reads, i < f.msgLen) ∧ (measureReqLoop cfg f).InElements f := by
  rw [@wellFormed_iff _ f _ (takeMeasureReq f) 27 cfg.stack _ fun _ => reads_takeMeasureReq]
  refine and_congr ?_ Iff.rfl
  unfold peerMeasureReqAction
  rw [forall_reads_bind _ hn]
  · exact (forall_reads_tokenLoop fun _ => reads_takeMeasureReq).symm
  · split
    · simp [addr2]
      omega
    · simp

theorem wellFormed_measureReport (hn : 26 ≤ f.msgLen) (halloc : cfg.canAlloc = true) :
    WellFormed f IE_MEASUREMENT_REPORT 27 (reportNeed f) ↔
      (∀ i ∈ (peerMeasureReportAction cfg f).reads, i < f.msgLen) ∧ (measureReportLoop f).InElements f := by
  rw [@wellFormed_iff _ f _ (takeMeasureReport f) 27 (⟨0, 0, 0⟩, .zero) _ fun _ => reads_takeMeasureReport]
  refine and_congr ?_ ?_
  · unfold peerMeasureReportAction
    rw [if_pos halloc, forall_reads_bind _ hn]
    · exact (forall_reads_tokenLoop fun _ => reads_takeMeasureReport).symm
    · split
      · simp [addr1, addr2]
        omega
      · simp
  · unfold Loop.InElements measureReportLoop
    simp only [reads_takeMeasureReport]

theorem wellFormed_tpcReq (hn : 26 ≤ f.msgLen) :
    WellFormed f IE_TPC_REQUEST 27 (fun _ => 0) ↔
      (∀ i ∈ (peerTpcReqAction f).reads, i < f.msgLen) ∧ tpcReqLoop.InElements f := by
  have htoken : (∀ i ∈ (tokenLoop f IE_TPC_REQUEST (fun _ => pure) ()).reads, i < f.msgLen) ↔
      ∀ i ∈ (eidLoop f IE_TPC_REQUEST (fun _ => pure) 27 ()).reads, i < f.msgLen :=
    @forall_reads_tokenLoop _ _ _ _ _ (fun _ => 0) fun _ _ => rfl
  have htail : (∀ i ∈ (peerTpcReqSanity f >>= fun r =>
      if r.1 then (do
        let a ← addr2 f
        pure [Accepted.tpcReq a r.2.1])
      else pure []).reads, i < f.msgLen) ↔ ∀ i ∈ (peerTpcReqSanity f).reads, i < f.msgLen := by
    refine forall_reads_bind ?_ hn
    split
    · simp [addr2]
      omega
    · simp
  rw [@wellFormed_iff _ f _ (fun _ => pure) 27 () (fun _ => 0) fun _ _ => rfl]
  refine and_congr ?_ Iff.rfl
  unfold peerTpcReqAction
  rw [reads_bind, List.forall_mem_append, htail]
  unfold peerTpcReqSanity
  rw [htoken]
  -- the token that is read first is read by the sanity function again
  refine (and_iff_right_of_imp fun h i hi => ?_).symm
  rw [List.mem_singleton.1 hi]
  exact htoken.2 h 26 (mem_reads_tokenLoop.2 (Or.inl rfl))

theorem wellFormed_tpcRep (hn : 26 ≤ f.msgLen) :
    WellFormed f IE_TPC_REPORT 27 (fun _ => 2) ↔
      (∀ i ∈ (peerTpcRepAction f).reads, i < f.msgLen) ∧ (tpcRepLoop f).InElements f := by
  rw [@wellFormed_iff _ f _ (takeTpcRep f) 27 ⟨0, 0⟩ _ fun _ => reads_takeTpcRep]
  refine and_congr ?_ Iff.rfl
  unfold peerTpcRepAction
  rw [forall_reads_bind _ hn]
  · exact (forall_reads_tokenLoop fun _ => reads_takeTpcRep).symm
  · split <;> simp

theorem wellFormed_chSwAnn (cfg : Config) (hn : 26 ≤ f.msgLen) :
    WellFormed f IE_CHANNEL_SWITCH_ANNOUNCEMENT 26 (fun _ => 3) ↔
      (∀ i ∈ (peerChSwAnnAction cfg f).reads, i < f.msgLen) ∧ (chSwAnnLoop f).InElements f := by
  rw [@wellFormed_iff _ f _ (takeChSwAnn f) 26 ⟨0, 0, 0⟩ _ fun _ => reads_takeChSwAnn]
  refine and_congr ?_ Iff.rfl
  unfold peerChSwAnnAction
  rw [forall_reads_bind _ hn]
  · rfl
  · split
    · simp [addr3]
      omega
    · simp

theorem reads_secondaryOffset : (secondaryOffset f).reads = if f.msgLen = 30 then [33] else [] := by
  unfold secondaryOffset
  exact reads_ite _ _ _

/-- The fixed places need a frame of thirty-one octets; the one length with which a secondary channel offset is looked
for is shorter. -/
theorem reads_channelSwitchIe : (∀ i ∈ (channelSwitchIe f).reads, i < f.msgLen) ↔ 31 ≤ f.msgLen := by
  have hmem : ∀ i ∈ (channelSwitchIe f).reads, i ≤ 30 ∨ i = 33 ∧ f.msgLen = 30 := by
    unfold channelSwitchIe
    intro i hi
    simp only [reads_bind, reads_fetch, reads_ite, reads_pure, reads_secondaryOffset, LENGTH_802_11,
      List.mem_append, List.mem_singleton, List.mem_ite_nil_right, List.append_nil] at hi
    omega
  have h30 : 30 ∈ (channelSwitchIe f).reads := by
    unfold channelSwitchIe
    simp [LENGTH_802_11]
  constructor
  · intro h
    have := h 30 h30
    omega
  · intro h i hi
    have := hmem i hi
    omega

/-! ### What each action accepts -/

theorem present_measureReq (h : WellFormed f IE_MEASUREMENT_REQUEST 27 fun _ => 14) :
    ∀ a ∈ (peerMeasureReqAction cfg f).val, a.Present f := by
  intro a ha
  unfold peerMeasureReqAction at ha
  rw [val_bind, val_ite] at ha
  split at ha
  · rename_i hacc
    have hle : 27 ≤ rest f.msg f.msgLen 27 := le_rest
    have hcut := h.cut
    obtain ⟨q, hq, he, s, hs⟩ := @val_eidLoop _ f _ (takeMeasureReq f) 27 cfg.stack hacc
    have hval : (peerMeasureReqSanity f cfg.stack).val.2.2 = (takeMeasureReq f q s).val := hs
    rw [List.mem_singleton.1 ha]
    exact ⟨by omega, rfl, rfl, q, ⟨hq, he, h.long q hq he⟩, congrArg Prod.fst hval, congrArg Prod.snd hval⟩
  · exact absurd ha List.not_mem_nil

theorem val_takeReportOf {q : ℕ} (report : MeasureReport) (h : (f.msg (q + 4)).toNat < 3) :
    let r := (takeReportOf f q (f.msg (q + 4)) report).val
    r.chNum = f.msg (q + 5) ∧ r.measureStartTime = readAt f.msg (q + 6) 8 ∧
      r.measureDuration = readAt f.msg (q + 14) 2 ∧ r.rpiDensity.head? = some (f.msg (q + 16)) ∧
      (f.msg (q + 4) = RM_RPI_HISTOGRAM → r.rpiDensity.take 8 = readAt f.msg (q + 16) 8) := by
  unfold takeReportOf
  by_cases hbasic : f.msg (q + 4) = RM_BASIC
  · rw [if_pos hbasic, hbasic]
    exact ⟨rfl, rfl, rfl, rfl, nofun⟩
  rw [if_neg hbasic]
  by_cases hcca : f.msg (q + 4) = RM_CCA
  · rw [if_pos hcca, hcca]
    exact ⟨rfl, rfl, rfl, rfl, nofun⟩
  rw [if_neg hcca]
  by_cases hrpi : f.msg (q + 4) = RM_RPI_HISTOGRAM
  · rw [if_pos hrpi]
    exact ⟨rfl, rfl, rfl, rfl, fun _ => List.take_left' rfl⟩
  · simp only [RM_BASIC, RM_CCA, RM_RPI_HISTOGRAM, ← BitVec.toNat_inj] at hbasic hcca hrpi
    simp at hbasic hcca hrpi
    omega

theorem reportNeed_of_lt {q : ℕ} (h : (f.msg (q + 4)).toNat < 3) : 15 ≤ reportNeed f q := by
  unfold reportNeed
  split_ifs with h1 h2
  · rfl
  · decide
  · simp only [RM_BASIC, RM_CCA, RM_RPI_HISTOGRAM, ← BitVec.toNat_inj] at h1 h2
    simp at h1 h2
    omega

theorem reportNeed_of_rpi {q : ℕ} (h : f.msg (q + 4) = RM_RPI_HISTOGRAM) : reportNeed f q = 22 := by
  unfold reportNeed
  rw [h]
  rfl

theorem present_measureReport (h : WellFormed f IE_MEASUREMENT_REPORT 27 (reportNeed f)) :
    ∀ a ∈ (peerMeasureReportAction cfg f).val, a.Present f := by
  intro a ha
  unfold peerMeasureReportAction at ha
  rw [val_ite] at ha
  split at ha
  swap
  · exact absurd ha List.not_mem_nil
  rw [val_bind, val_ite] at ha
  split at ha
  swap
  · exact absurd ha List.not_mem_nil
  rename_i hacc
  have hle : 27 ≤ rest f.msg f.msgLen 27 := le_rest
  have hcut := h.cut
  obtain ⟨q, hq, he, s, hs⟩ := @val_eidLoop _ f _ (takeMeasureReport f) 27 (⟨0, 0, 0⟩, .zero) hacc
  have hval : (peerMeasureReportSanity f (⟨0, 0, 0⟩, .zero)).val.2.2 = (takeMeasureReport f q s).val := hs
  have hinfo : (peerMeasureReportSanity f (⟨0, 0, 0⟩, .zero)).val.2.2.1 =
      ⟨f.msg (q + 2), f.msg (q + 3), f.msg (q + 4)⟩ := congrArg Prod.fst hval
  have hreport : (peerMeasureReportSanity f (⟨0, 0, 0⟩, .zero)).val.2.2.2 =
      (takeReportOf f q (f.msg (q + 4)) s.2).val := congrArg Prod.snd hval
  have hlong := h.long q hq he
  rw [List.mem_singleton.1 ha]
  refine ⟨by omega, rfl, rfl, rfl, q, ⟨hq, he, le_trans three_le_reportNeed hlong⟩, hinfo, ?_, ?_⟩
  · rw [hinfo, hreport]
    intro hlt
    obtain ⟨h1, h2, h3, h4, -⟩ := val_takeReportOf s.2 hlt
    exact ⟨le_trans (reportNeed_of_lt hlt) hlong, h1, h2, h3, h4⟩
  · rw [hinfo, hreport]
    intro hrpi
    have htype : f.msg (q + 4) = RM_RPI_HISTOGRAM := hrpi
    have hlt : (f.msg (q + 4)).toNat < 3 := by
      rw [htype]
      decide
    rw [reportNeed_of_rpi htype] at hlong
    exact ⟨hlong, (val_takeReportOf s.2 hlt).2.2.2.2 htype⟩

theorem present_tpcReq (h : WellFormed f IE_TPC_REQUEST 27 fun _ => 0) :
    ∀ a ∈ (peerTpcReqAction f).val, a.Present f := by
  intro a ha
  unfold peerTpcReqAction at ha
  rw [val_bind, val_bind, val_ite] at ha
  split at ha
  · rename_i hacc
    have hle : 27 ≤ rest f.msg f.msgLen 27 := le_rest
    have hcut := h.cut
    obtain ⟨q, hq, he, -⟩ := @val_eidLoop _ f _ (fun _ => pure) 27 () hacc
    rw [List.mem_singleton.1 ha]
    exact ⟨by omega, rfl, rfl, q, hq, he, Nat.zero_le _⟩
  · exact absurd ha List.not_mem_nil

theorem present_tpcRep (h : WellFormed f IE_TPC_REPORT 27 fun _ => 2) :
    ∀ a ∈ (peerTpcRepAction f).val, a.Present f := by
  intro a ha
  unfold peerTpcRepAction at ha
  rw [val_bind, val_ite] at ha
  split at ha
  · rename_i hacc
    have hle : 27 ≤ rest f.msg f.msgLen 27 := le_rest
    have hcut := h.cut
    obtain ⟨q, hq, he, s, hs⟩ := @val_eidLoop _ f _ (takeTpcRep f) 27 ⟨0, 0⟩ hacc
    rw [List.mem_singleton.1 ha]
    exact ⟨by omega, rfl, q, ⟨hq, he, h.long q hq he⟩, hs⟩
  · exact absurd ha List.not_mem_nil

theorem present_chSwAnn (h : WellFormed f IE_CHANNEL_SWITCH_ANNOUNCEMENT 26 fun _ => 3) :
    ∀ a ∈ (peerChSwAnnAction cfg f).val, a.Present f := by
  intro a ha
  unfold peerChSwAnnAction at ha
  rw [val_bind, val_ite] at ha
  split at ha
  · rename_i hacc
    have hle : 26 ≤ rest f.msg f.msgLen 26 := le_rest
    have hcut := h.cut
    obtain ⟨q, hq, he, s, hs⟩ := @val_eidLoop _ f _ (takeChSwAnn f) 26 ⟨0, 0, 0⟩ hacc.1
    rw [List.mem_singleton.1 ha]
    exact ⟨by omega, rfl, q, ⟨hq, he, h.long q hq he⟩, hs⟩
  · exact absurd ha List.not_mem_nil

theorem present_channelSwitchIe (h : 31 ≤ f.msgLen) : ∀ a ∈ (channelSwitchIe f).val, a.Present f := by
  intro a ha
  have hlen : f.msgLen ≠ LENGTH_802_11 + 2 + 3 + 1 := by
    unfold LENGTH_802_11
    omega
  unfold channelSwitchIe at ha
  rw [val_bind, val_bind, val_bind, val_bind, val_bind, val_ite] at ha
  split at ha
  swap
  · exact absurd ha List.not_mem_nil
  rename_i heid
  rw [val_bind, val_pure] at ha
  split at ha
  swap
  · exact absurd ha List.not_mem_nil
  rename_i hthree
  rw [List.mem_singleton.1 ha]
  refine ⟨heid, hthree, h, rfl, ?_⟩
  unfold secondaryOffset
  rw [if_neg hlen]
  rfl

end

/-! ### The whole handler -/

section

variable {cfg : Config} {f : Frame}

theorem mem_reads_peerSpectrumAction {i : ℕ} :
    i ∈ (peerSpectrumAction cfg f).reads ↔ i = 25 ∨ i ∈ (actionSwitch cfg f (f.msg 25)).reads := List.mem_cons

/-- **The parser stays inside exactly if the frame fits.** -/
theorem parsersStayInside_iff (cfg : Config) (f : Frame) : StaysInside cfg f ↔ Fits cfg f := by
  constructor
  · intro h
    have hn : 26 ≤ f.msgLen := h.frame 25 (mem_reads_peerSpectrumAction.2 (Or.inl rfl))
    have hswitch : ∀ i ∈ (actionSwitch cfg f (f.msg 25)).reads, i < f.msgLen :=
      fun i hi => h.frame i (mem_reads_peerSpectrumAction.2 (Or.inr hi))
    have helem := h.element
    refine ⟨hn, fun hon ha => ?_, fun hon ha halloc => ?_, fun hon ha => ?_, fun hon ha => ?_, fun hon ha => ?_⟩
    all_goals
      unfold actionSwitch at hswitch
      unfold loopOf at helem
      rw [if_neg (by simp [hon]), ha] at hswitch helem
    · exact (wellFormed_measureReq cfg hn).2 ⟨hswitch, helem _ rfl⟩
    · exact (wellFormed_measureReport hn halloc).2 ⟨hswitch, helem _ (if_pos halloc)⟩
    · exact (wellFormed_tpcReq hn).2 ⟨hswitch, helem _ rfl⟩
    · exact (wellFormed_tpcRep hn).2 ⟨hswitch, helem _ rfl⟩
    · have hsplit : ∀ i ∈ (channelSwitchIe f).reads ++ ((peerChSwAnnAction cfg f).reads ++ []), i < f.msgLen := hswitch
      rw [List.append_nil, List.forall_mem_append] at hsplit
      exact ⟨reads_channelSwitchIe.1 hsplit.1, (wellFormed_chSwAnn cfg hn).2 ⟨hsplit.2, helem _ rfl⟩⟩
  · intro h
    have hn := h.header
    refine ⟨fun i hi => ?_, fun l hl => ?_, fun a ha => ?_⟩
    · rcases mem_reads_peerSpectrumAction.1 hi with rfl | hi
      · exact hn
      unfold actionSwitch at hi
      split_ifs at hi with hoff hmrq hmrp htpcrq htpcrp hcsa
      · exact absurd hi List.not_mem_nil
      all_goals have hon : cfg.bIEEE80211H = true := Bool.eq_true_of_not_eq_false hoff
      · exact ((wellFormed_measureReq cfg hn).1 (h.measureReq hon hmrq)).1 i hi
      · by_cases halloc : cfg.canAlloc = true
        · exact ((wellFormed_measureReport hn halloc).1 (h.measureReport hon hmrp halloc)).1 i hi
        · unfold peerMeasureReportAction at hi
          rw [if_neg halloc] at hi
          exact absurd hi List.not_mem_nil
      · exact ((wellFormed_tpcReq hn).1 (h.tpcReq hon htpcrq)).1 i hi
      · exact ((wellFormed_tpcRep hn).1 (h.tpcRep hon htpcrp)).1 i hi
      · obtain ⟨hlen, hfit⟩ := h.channelSwitch hon hcsa
        have hi' : i ∈ (channelSwitchIe f).reads ++ ((peerChSwAnnAction cfg f).reads ++ []) := hi
        rw [List.append_nil] at hi'
        rcases List.mem_append.1 hi' with hi' | hi'
        · exact reads_channelSwitchIe.2 hlen i hi'
        · exact ((wellFormed_chSwAnn cfg hn).1 hfit).1 i hi'
      · exact absurd hi List.not_mem_nil
    · unfold loopOf at hl
      split_ifs at hl with hoff hmrq hmrp halloc htpcrq htpcrp hcsa
      all_goals
        have hon : cfg.bIEEE80211H = true := Bool.eq_true_of_not_eq_false hoff
        cases hl
      · exact ((wellFormed_measureReq cfg hn).1 (h.measureReq hon hmrq)).2
      · exact ((wellFormed_measureReport hn halloc).1 (h.measureReport hon hmrp halloc)).2
      · exact ((wellFormed_tpcReq hn).1 (h.tpcReq hon htpcrq)).2
      · exact ((wellFormed_tpcRep hn).1 (h.tpcRep hon htpcrp)).2
      · exact ((wellFormed_chSwAnn cfg hn).1 (h.channelSwitch hon hcsa).2).2
    · have hval : a ∈ (actionSwitch cfg f (f.msg 25)).val := ha
      unfold actionSwitch at hval
      split_ifs at hval with hoff hmrq hmrp htpcrq htpcrp hcsa
      · exact absurd hval List.not_mem_nil
      all_goals have hon : cfg.bIEEE80211H = true := Bool.eq_true_of_not_eq_false hoff
      · exact present_measureReq (h.measureReq hon hmrq) a hval
      · by_cases halloc : cfg.canAlloc = true
        · exact present_measureReport (h.measureReport hon hmrp halloc) a hval
        · unfold peerMeasureReportAction at hval
          rw [if_neg halloc] at hval
          exact absurd hval List.not_mem_nil
      · exact present_tpcReq (h.tpcReq hon htpcrq) a hval
      · exact present_tpcRep (h.tpcRep hon htpcrp) a hval
      · obtain ⟨hlen, hfit⟩ := h.channelSwitch hon hcsa
        rcases List.mem_append.1 hval with hval | hval
        · exact present_channelSwitchIe hlen a hval
        · exact present_chSwAnn hfit a hval
      · exact absurd hval List.not_mem_nil

end

def tpcRequest : Frame := ⟨mem (List.replicate 24 0 ++ [0, SPEC_TPCRQ, 7, IE_TPC_REQUEST, 0]), 29⟩

/-- The test behind the last element reads a length octet behind the frame. -/
theorem not_staysInside_tpcRequest : ¬ StaysInside ⟨true, true, true, ⟨0, 0, 0⟩, ⟨0, 0, 0⟩⟩ tpcRequest := by
  intro h
  have hon : 26 ≤ tpcRequest.msgLen := by decide
  have hreads : ∀ i ∈ (peerTpcReqAction tpcRequest).reads, i < 29 :=
    fun i hi => h.frame i (mem_reads_peerSpectrumAction.2 (Or.inr hi))
  have hrest : rest tpcRequest.msg 29 27 = 29 := by
    rw [rest_of_le (by decide)]
    exact rest_of_lt (by decide)
  have hcut := ((wellFormed_tpcReq hon).2 ⟨hreads, h.element tpcReqLoop rfl⟩).cut
  have hlt : rest tpcRequest.msg 29 27 + 1 < 29 := hcut
  omega

end Mt7610u.Spectrum
